import PasswordProfile.Foundation.SqlText
import PasswordProfile.Bypass.Cache
import PasswordProfile.Lockout.LoginAttempts
import PasswordProfile.PasswordChange.PasswordCheckHook

/-! # Who is exempt

Three statements read the setting `bypass_password_profile` of a role. The
refresh of the bypass cache accepts every spelling of true; the two functions
that read the catalog themselves compare the whole setting with one text.
-/

namespace PasswordProfile.Bypass

open Lockout SqlText
open PasswordChange (ValidationOutcome)

/-! ## The catalog -/

/-- A row of `pg_authid`, with the `setconfig` of its row in
`pg_db_role_setting` for no database in particular. -/
structure Role where
  rolname : String
  rolcanlogin : Bool
  rolsuper : Bool
  setconfig : List String
  deriving DecidableEq, Repr

def bypassName : String := "password_profile.bypass_password_profile"

/-- The spellings that `BYPASS_MATCH_SQL` lists. -/
def bypassMatches : List String :=
  ["true", "tru", "tr", "t", "yes", "ye", "y", "on", "1"]

/-- The condition of `BYPASS_MATCH_SQL` on one setting. -/
def bypassMatchSql (lower : Lower) (cfg : String) : Bool :=
  lower.lower (splitPartFirst cfg '=') == bypassName &&
    bypassMatches.contains (lower.lower (substr cfg (strpos cfg '=' + 1)))

def exemptRoles (lower : Lower) (catalog : List Role) : List String :=
  (catalog.filter fun role => role.setconfig.any (bypassMatchSql lower)).map
    Role.rolname

/-- The query on `pg_user` that `validate_password` and `record_failed_login`
share: the view shows the roles that can log in. -/
def bypassEnabled (catalog : List Role) (username : String) : Bool :=
  catalog.any fun role => role.rolcanlogin && role.rolname == username &&
    role.setconfig.any
      (· == "password_profile.bypass_password_profile=true")

/-- `SELECT usesuper FROM pg_user WHERE usename = $1`. -/
def isSuper (catalog : List Role) (username : String) : Bool :=
  catalog.any fun role =>
    role.rolcanlogin && role.rolname == username && role.rolsuper

/-- The exemption comes first; the checks after it accept or reject. -/
def validatePassword (catalog : List Role) (username : String)
    (checks : Except String Unit) : Except String ValidationOutcome :=
  if bypassEnabled catalog username then .ok .bypassed
  else checks.map fun _ => .accepted

/-- What `record_failed_login` reads of a user. -/
def failurePolicy (catalog : List Role) (username : String)
    (lockoutMinutes failedLoginMax : Int) : FailurePolicy where
  isSuper := isSuper catalog username
  bypass := bypassEnabled catalog username
  lockoutMinutes
  failedLoginMax

/-! ## The settings of a role -/

structure Setting where
  name : String
  value : String
  separated : '=' ∉ name.toList

def Setting.text (setting : Setting) : String :=
  setting.name ++ "=" ++ setting.value

/-- A role as `ALTER ROLE … SET` leaves it. -/
structure Configured (lower : Lower) (role : Role) (settings : List Setting) :
    Prop where
  setconfig : role.setconfig = settings.map Setting.text
  once : (settings.map Setting.name).Nodup
  canonical : ∀ setting ∈ settings,
    lower.lower setting.name = bypassName → setting.name = bypassName
  boolean : ∀ setting ∈ settings, setting.name = bypassName →
    (parseBool setting.value).isSome = true

def ReadsTrue (settings : List Setting) : Prop :=
  ∃ setting ∈ settings,
    setting.name = bypassName ∧ parseBool setting.value = some true

/-- The catalog lists every role once, under a role name. -/
structure IsCatalog (catalog : List Role) : Prop where
  distinct : (catalog.map Role.rolname).Nodup
  roles : ∀ role ∈ catalog, IsRoleName role.rolname

/-- The exemption of a role means the same everywhere. -/
structure AgreesEverywhere (lower : Lower) (catalog : List Role) (role : Role)
    (settings : List Setting) : Prop where
  selected : role.rolname ∈ exemptRoles lower catalog ↔ ReadsTrue settings
  loginHook : ∀ cache,
    (refreshBypassCache cache (exemptRoles lower catalog)).1.readState =
      .ready →
    ((refreshBypassCache cache (exemptRoles lower catalog)).1.lookup
      role.rolname = .bypassed ↔ ReadsTrue settings)
  validation : ∀ checks,
    validatePassword catalog role.rolname checks = .ok .bypassed ↔
      ReadsTrue settings
  failedLogin : ∀ table lockoutMinutes failedLoginMax now decidedAt,
    recordFailedLogin table role.rolname
        (failurePolicy catalog role.rolname lockoutMinutes failedLoginMax) now
        decidedAt =
      .ok (.nothing table, "Bypassed failed login tracking") ↔
      ReadsTrue settings

/-! ## What each predicate selects -/

theorem bypassName_separated : '=' ∉ bypassName.toList := by decide

theorem mem_bypassMatches_iff {lower : Lower} {value : String}
    (boolean : (parseBool value).isSome = true) :
    bypassMatches.contains (lower.lower value) = true ↔
      parseBool value = some true := by
  rcases Option.isSome_iff_exists.mp boolean with ⟨verdict, parsed⟩
  rw [lower.lower_accepted parsed, parseBool_eq_some_true_iff]
  have spellings : bypassMatches = trueSpellings.map String.ofList := by
    decide
  rw [spellings, List.contains_iff_mem]
  exact List.mem_map_of_injective fun _ _ same => String.ofList_injective same

theorem lower_bypassName (lower : Lower) :
    lower.lower bypassName = bypassName := by
  have plain : bypassName.toList.all
      (fun char => char.toNat < 128 ∧ char ≠ 'I') = true := by
    decide
  rw [lower.ascii bypassName fun char member =>
    of_decide_eq_true (List.all_eq_true.mp plain char member)]
  decide

section OneRole

variable {lower : Lower} {role : Role} {settings : List Setting}

theorem any_bypassMatchSql_iff (configured : Configured lower role settings) :
    role.setconfig.any (bypassMatchSql lower) = true ↔ ReadsTrue settings := by
  rw [configured.setconfig, List.any_map, List.any_eq_true, ReadsTrue]
  apply exists_congr
  intro setting
  apply and_congr_right
  intro member
  change bypassMatchSql lower setting.text = true ↔ _
  rw [bypassMatchSql, Setting.text, splitPartFirst_setting setting.separated,
    substr_setting setting.separated, Bool.and_eq_true, beq_iff_eq]
  constructor
  · intro given
    have name := configured.canonical setting member given.1
    have boolean := configured.boolean setting member name
    exact ⟨name, (mem_bypassMatches_iff boolean).mp given.2⟩
  · intro given
    rcases given with ⟨name, parsed⟩
    have boolean := configured.boolean setting member name
    refine ⟨?_, (mem_bypassMatches_iff boolean).mpr parsed⟩
    rw [name]
    exact lower_bypassName lower

theorem any_exact_iff (configured : Configured lower role settings) :
    role.setconfig.any
        (· == "password_profile.bypass_password_profile=true") = true ↔
      ∃ setting ∈ settings,
        setting.name = bypassName ∧ setting.value = "true" := by
  rw [configured.setconfig, List.any_map, List.any_eq_true]
  apply exists_congr
  intro setting
  apply and_congr_right
  intro _
  have exemption : "password_profile.bypass_password_profile=true" =
      bypassName ++ "=" ++ "true" := by decide
  rw [Function.comp_apply, beq_iff_eq, exemption, Setting.text,
    setting_injective setting.separated bypassName_separated]

end OneRole

section Catalog

variable {catalog : List Role} {role : Role}

theorem IsCatalog.eq_of_rolname (isCatalog : IsCatalog catalog)
    (member : role ∈ catalog) {other : Role} (otherMember : other ∈ catalog)
    (same : other.rolname = role.rolname) : other = role :=
  List.inj_on_of_nodup_map isCatalog.distinct otherMember member same

theorem IsCatalog.mem_exemptRoles_iff (isCatalog : IsCatalog catalog)
    (member : role ∈ catalog) {lower : Lower} :
    role.rolname ∈ exemptRoles lower catalog ↔
      role.setconfig.any (bypassMatchSql lower) = true := by
  rw [exemptRoles, List.mem_map]
  constructor
  · intro given
    rcases given with ⟨other, kept, same⟩
    rcases List.mem_filter.mp kept with ⟨otherMember, exempt⟩
    rwa [isCatalog.eq_of_rolname member otherMember same] at exempt
  · intro exempt
    exact ⟨role, List.mem_filter.mpr ⟨member, exempt⟩, rfl⟩

theorem IsCatalog.exemptRoles_distinct (isCatalog : IsCatalog catalog)
    (lower : Lower) : (exemptRoles lower catalog).Nodup :=
  isCatalog.distinct.sublist (List.filter_sublist.map _)

theorem IsCatalog.exemptRoles_roles (isCatalog : IsCatalog catalog)
    (lower : Lower) :
    ∀ username ∈ exemptRoles lower catalog, IsRoleName username := by
  intro username exempt
  rcases List.mem_map.mp exempt with ⟨role, kept, rfl⟩
  exact isCatalog.roles role (List.mem_of_mem_filter kept)

theorem IsCatalog.bypassEnabled_iff (isCatalog : IsCatalog catalog)
    (member : role ∈ catalog) (login : role.rolcanlogin = true) :
    bypassEnabled catalog role.rolname = true ↔
      role.setconfig.any
        (· == "password_profile.bypass_password_profile=true") = true := by
  rw [bypassEnabled, List.any_eq_true]
  constructor
  · intro given
    rcases given with ⟨other, otherMember, found⟩
    rw [Bool.and_eq_true, Bool.and_eq_true, beq_iff_eq] at found
    have same := isCatalog.eq_of_rolname member otherMember found.1.2
    rw [← same]
    exact found.2
  · intro exempt
    exact ⟨role, member, by simp [login, exempt]⟩

theorem IsCatalog.isSuper_eq_false (isCatalog : IsCatalog catalog)
    (member : role ∈ catalog) (ordinary : role.rolsuper = false) :
    isSuper catalog role.rolname = false := by
  rw [isSuper, List.any_eq_false]
  intro other otherMember found
  rw [Bool.and_eq_true, Bool.and_eq_true, beq_iff_eq] at found
  have same := isCatalog.eq_of_rolname member otherMember found.1.2
  rw [same, ordinary] at found
  cases found.2

theorem IsCatalog.lookup_refreshed_iff (isCatalog : IsCatalog catalog)
    (member : role ∈ catalog) (lower : Lower) (cache : BypassCache)
    (ready : (refreshBypassCache cache
      (exemptRoles lower catalog)).1.readState = .ready) :
    (refreshBypassCache cache (exemptRoles lower catalog)).1.lookup
        role.rolname = .bypassed ↔
      role.rolname ∈ exemptRoles lower catalog := by
  have exemptRole := isCatalog.exemptRoles_roles lower
  have roleName := isCatalog.roles role member
  have complete := ready
  change ((BypassSnapshot.read (exemptRoles lower catalog)).install
    cache).1.readState = .ready at complete
  rw [BypassSnapshot.readState_install,
    BypassSnapshot.newState_eq_ready_iff] at complete
  rw [BypassCache.lookup_eq_bypassed_iff ready roleName]
  refine (BypassSnapshot.holds_install exemptRole
    (isCatalog.exemptRoles_distinct lower) complete cache).trans ?_
  constructor
  · intro given
    rcases given with ⟨name, exempt, encodes⟩
    have same := encodeUsername_injective roleName (exemptRole name exempt)
      encodes
    rwa [same]
  · intro exempt
    exact ⟨_, exempt, rfl⟩

end Catalog

theorem validatePassword_eq_bypassed_iff (catalog : List Role)
    (username : String) (checks : Except String Unit) :
    validatePassword catalog username checks = .ok .bypassed ↔
      bypassEnabled catalog username = true := by
  rw [validatePassword]
  cases bypassEnabled catalog username with
  | true => simp
  | false => cases checks <;> simp [Except.map]

theorem recordFailedLogin_bypassed_iff (table : LoginAttempts)
    (username : String) {policy : FailurePolicy}
    (ordinary : policy.isSuper = false) (now decidedAt : TimestampTz) :
    recordFailedLogin table username policy now decidedAt =
        .ok (.nothing table, "Bypassed failed login tracking") ↔
      policy.bypass = true := by
  rw [recordFailedLogin, ordinary]
  cases policy.bypass with
  | true => simp
  | false =>
      simp only [Bool.false_eq_true, if_false, iff_false]
      intro recorded
      rcases map_eq_ok recorded with ⟨_, _, same⟩
      have locked := congrArg (·.1.locked) same
      cases locked

/-- The exemption means the same everywhere exactly when the role has no such
setting, spells it `true`, or spells it false. -/
theorem exemption_agreesEverywhere_iff {lower : Lower} {catalog : List Role}
    {role : Role} {settings : List Setting} (isCatalog : IsCatalog catalog)
    (member : role ∈ catalog) (login : role.rolcanlogin = true)
    (ordinary : role.rolsuper = false)
    (configured : Configured lower role settings) :
    AgreesEverywhere lower catalog role settings ↔
      ∀ setting ∈ settings, setting.name = bypassName →
        setting.value = "true" ∨ parseBool setting.value = some false := by
  have selected := (isCatalog.mem_exemptRoles_iff member).trans
    (any_bypassMatchSql_iff configured)
  have exactly := (isCatalog.bypassEnabled_iff member login).trans
    (any_exact_iff configured)
  constructor
  · intro agrees setting settingMember name
    have boolean := configured.boolean setting settingMember name
    rcases Option.isSome_iff_exists.mp boolean with ⟨verdict, parsed⟩
    cases verdict with
    | false => exact .inr parsed
    | true =>
        have enabled := (validatePassword_eq_bypassed_iff catalog role.rolname
          (.ok ())).mp ((agrees.validation (.ok ())).mpr
            ⟨setting, settingMember, name, parsed⟩)
        rcases exactly.mp enabled with ⟨other, otherMember, otherName, value⟩
        have same := List.inj_on_of_nodup_map configured.once otherMember
          settingMember (otherName.trans name.symm)
        exact .inl (same ▸ value)
  · intro spelled
    have enabled : bypassEnabled catalog role.rolname = true ↔
        ReadsTrue settings := by
      rw [exactly]
      apply exists_congr
      intro setting
      apply and_congr_right
      intro settingMember
      apply and_congr_right
      intro name
      constructor
      · intro value
        rw [value]
        decide
      · intro parsed
        rcases spelled setting settingMember name with value | otherwise
        · exact value
        · rw [parsed] at otherwise
          cases otherwise
    refine ⟨selected, fun cache ready => ?_, fun checks => ?_,
      fun table lockoutMinutes failedLoginMax now decidedAt => ?_⟩
    · exact (isCatalog.lookup_refreshed_iff member lower cache ready).trans
        selected
    · exact (validatePassword_eq_bypassed_iff catalog role.rolname
        checks).trans enabled
    · exact (recordFailedLogin_bypassed_iff table role.rolname
        (isCatalog.isSuper_eq_false member ordinary) now decidedAt).trans
        enabled

/-- The setting of a role, as the catalog stores it. -/
def bypassSetting (value : String) : Setting :=
  ⟨bypassName, value, bypassName_separated⟩

/-- A role that can log in, with one setting. -/
def maintenanceRole (value : String) : Role :=
  ⟨"maint", true, false, [(bypassSetting value).text]⟩

theorem maintenanceRole_configured {value : String}
    (boolean : (parseBool value).isSome = true) :
    Configured .posix (maintenanceRole value) [bypassSetting value] where
  setconfig := rfl
  once := List.nodup_singleton _
  canonical setting member _ := by
    rw [List.mem_singleton.mp member]
    rfl
  boolean setting member _ := by
    rw [List.mem_singleton.mp member]
    exact boolean

theorem maintenanceRole_isCatalog (value : String) :
    IsCatalog [maintenanceRole value] where
  distinct := List.nodup_singleton _
  roles role member := by
    rw [List.mem_singleton.mp member]
    change IsRoleName "maint"
    decide +kernel

theorem exemption_agreesEverywhere_true :
    AgreesEverywhere .posix [maintenanceRole "true"] (maintenanceRole "true")
      [bypassSetting "true"] :=
  (exemption_agreesEverywhere_iff (maintenanceRole_isCatalog "true")
    List.mem_cons_self rfl rfl
    (maintenanceRole_configured (by decide))).mpr (by
      intro setting member _
      rw [List.mem_singleton.mp member]
      exact .inl rfl)

/-- The value `on` exempts from lockouts at login, and from nothing else. -/
theorem exemption_differs_on :
    ReadsTrue [bypassSetting "on"] ∧
      "maint" ∈ exemptRoles .posix [maintenanceRole "on"] ∧
      (refreshBypassCache .init
        (exemptRoles .posix [maintenanceRole "on"])).1.lookup "maint" =
          .bypassed ∧
      validatePassword [maintenanceRole "on"] "maint" (.ok ()) =
        .ok .accepted ∧
      (recordFailedLogin ∅ "maint"
        (failurePolicy [maintenanceRole "on"] "maint" 1 3) 0 1).map Prod.snd =
          .ok "Failed login recorded" :=
  ⟨⟨bypassSetting "on", List.mem_cons_self, rfl, by decide⟩,
    by decide, by decide +kernel, by decide, by decide⟩

end PasswordProfile.Bypass
