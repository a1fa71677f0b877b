import PasswordProfile.PasswordChange.PolicySettings

/-! # What an accepted password satisfies

The rules in the terms of an administrator, who counts characters, against the
checks of `validate_password`, which counts bytes.
-/

namespace PasswordProfile.PasswordChange

open Bypass (IsCatalog Role Setting bypassEnabled)
open Text SqlText

/-- Everything that the validation of a password depends on, for a role that is
not exempt. -/
structure PolicySetup where
  validator : Validator
  casts : SqlCasts
  catalog : List Role
  isCatalog : IsCatalog catalog
  role : Role
  listed : role ∈ catalog
  enforced : bypassEnabled catalog role.rolname = false
  settings : List Setting
  configured : PolicyConfigured casts role settings
  server : PasswordPolicy
  inRange : LengthInRange server.minLength
  blacklist : List String
  /-- The answer of `custom_password_check`, when the function exists. -/
  custom : String → Except String (Option String)
  history : PasswordHistory
  scan : ScanOrder
  now : TimestampTz

structure HasCharacters (tables : CharacterTables) (policy : PasswordPolicy)
    (password : String) : Prop where
  uppercase : policy.requireUppercase = true →
    ∃ char ∈ password.toList, tables.isUppercase char = true
  lowercase : policy.requireLowercase = true →
    ∃ char ∈ password.toList, tables.isLowercase char = true
  digit : policy.requireDigit = true →
    ∃ char ∈ password.toList, '0' ≤ char ∧ char ≤ '9'
  special : policy.requireSpecial = true →
    ∃ char ∈ password.toList, tables.isAlphanumeric char = false

structure MeetsPolicy (tables : CharacterTables) (policy : PasswordPolicy)
    (password : String) : Prop where
  length : policy.minLength ≤ password.toList.length
  characters : HasCharacters tables policy password

def MeetsUsernameRule (tables : CharacterTables) (policy : PasswordPolicy)
    (username password : String) : Prop :=
  policy.preventUsername = true → username.toList ≠ [] →
    ¬tables.toLowercase username.toList <:+: tables.toLowercase password.toList

namespace PolicySetup

variable (setup : PolicySetup) (password : String)

def reads : ValidationReads where
  policy := lookupPolicy setup.casts setup.catalog setup.role.rolname
    setup.server
  blacklisted := .ok (setup.blacklist.contains password)
  customCheck := setup.custom password

def validatePassword : Except String ValidationOutcome :=
  setup.validator.validatePassword setup.catalog (setup.reads password)
    setup.history setup.scan setup.role.rolname password setup.now

def policy : PasswordPolicy :=
  effectivePolicy setup.casts setup.settings setup.server

def NotHashLike : Prop :=
  isHashLike setup.validator.tables.toCaseTables password = some false

structure MeetsHistory : Prop where
  recent : historyCheck setup.validator.digests setup.validator.settings
    setup.history setup.scan setup.role.rolname password = .ok ()
  reuse : reuseCheck setup.validator.digests setup.validator.calendar
    setup.validator.settings setup.history setup.role.rolname password
    setup.now = .ok ()

def NotVetoed : Prop :=
  ∃ answer, setup.custom password = .ok answer ∧ customCheck answer = .ok ()

/-- The checks that do not depend on the settings. -/
structure PassesRest : Prop where
  notHashLike : setup.NotHashLike password
  unlisted : password ∉ setup.blacklist
  history : setup.MeetsHistory password
  notVetoed : setup.NotVetoed password

structure PassesOthers : Prop extends setup.PassesRest password where
  characters : HasCharacters setup.validator.tables setup.policy password
  username : MeetsUsernameRule setup.validator.tables setup.policy
    setup.role.rolname password

structure EnforcesPolicy : Prop where
  sound : setup.validatePassword password = .ok .accepted →
    MeetsPolicy setup.validator.tables setup.policy password ∧
      setup.NotHashLike password ∧ password ∉ setup.blacklist
  complete : MeetsPolicy setup.validator.tables setup.policy password →
    setup.NotHashLike password → password ∉ setup.blacklist →
    MeetsUsernameRule setup.validator.tables setup.policy setup.role.rolname
      password →
    setup.MeetsHistory password → setup.NotVetoed password →
    setup.validatePassword password = .ok .accepted

/-- Each query finds the effective value of its rule. -/
def FindsSettings : Prop :=
  FindsPolicy setup.casts setup.role setup.settings setup.server setup.policy

def AdmitsShort : Prop :=
  password.toList.length < setup.policy.minLength ∧
    setup.policy.minLength ≤ (utf8Bytes password).length ∧
    setup.PassesOthers password

end PolicySetup

/-! ## When the checks pass -/

theorem hashLikeCheck_eq_ok_iff {tables : CharacterTables}
    {password : String} :
    hashLikeCheck tables password = .ok () ↔
      isHashLike tables.toCaseTables password = some false := by
  rw [hashLikeCheck]
  split
  · next plain => exact iff_of_true rfl plain
  · next hashed => exact iff_of_false nofun hashed

theorem blacklistCheck_eq_ok_iff {blacklisted : Bool} :
    blacklistCheck blacklisted = .ok () ↔ blacklisted = false := by
  cases blacklisted with
  | true => exact iff_of_false nofun nofun
  | false => exact iff_of_true rfl rfl

theorem rule_passes {required : Bool} {chars : List Char} {asked : Char → Bool} :
    ¬(required && !chars.any asked) = true ↔
      (required = true → ∃ char ∈ chars, asked char = true) := by
  cases required with
  | false => simp
  | true => simp

theorem refused_or_eq_ok_iff {condition : Prop} [Decidable condition]
    {message : String} {rest : Except String Unit} :
    (if condition then .error message else rest) = .ok () ↔
      ¬condition ∧ rest = .ok () := by
  by_cases refused : condition
  · rw [if_pos refused]
    exact iff_of_false nofun fun both => both.1 refused
  · rw [if_neg refused]
    exact ⟨fun passed => ⟨refused, passed⟩, fun both => both.2⟩

theorem usernameRule_iff {tables : CharacterTables} {policy : PasswordPolicy}
    {username password : String} :
    ¬(policy.preventUsername && !username.toList.isEmpty &&
        decide (tables.toLowercase username.toList <:+:
          tables.toLowercase password.toList)) = true ↔
      MeetsUsernameRule tables policy username password := by
  rw [MeetsUsernameRule, Bool.and_eq_true, Bool.and_eq_true,
    decide_eq_true_iff, Bool.not_eq_true', List.isEmpty_eq_false_iff]
  exact ⟨fun passes prevents named contained =>
    passes ⟨⟨prevents, named⟩, contained⟩,
    fun meets ⟨⟨prevents, named⟩, contained⟩ => meets prevents named contained⟩

theorem contentChecks_eq_ok_iff {tables : CharacterTables}
    {policy : PasswordPolicy} {username password : String} :
    contentChecks tables policy username password = .ok () ↔
      asUsize policy.minLength ≤ (utf8Bytes password).length ∧
        HasCharacters tables policy password ∧
        MeetsUsernameRule tables policy username password := by
  rw [contentChecks]
  simp only [refused_or_eq_ok_iff, rule_passes, usernameRule_iff, not_lt,
    and_true]
  constructor
  · intro passed
    rcases passed with ⟨long, upper, lower, digit, special, username⟩
    exact ⟨long, ⟨upper, lower, by simpa using digit,
      by simpa using special⟩, username⟩
  · intro meets
    rcases meets with ⟨long, characters, username⟩
    exact ⟨long, characters.uppercase, characters.lowercase,
      by simpa using characters.digit, by simpa using characters.special,
      username⟩

theorem asUsize_of_inRange {minLength : Int} (inRange : LengthInRange minLength)
    (length : Nat) : asUsize minLength ≤ length ↔ minLength ≤ length := by
  rcases inRange with ⟨positive, small⟩
  rw [asUsize, Int.emod_eq_of_lt (by omega) (by omega)]
  omega

theorem length_le_utf8Bytes (text : String) :
    text.toList.length ≤ (utf8Bytes text).length := by
  rw [utf8Bytes_eq_flatMap]
  induction text.toList with
  | nil => exact le_refl _
  | cons char rest induction =>
      have one : 0 < (String.utf8EncodeChar char).length := by
        rw [String.length_utf8EncodeChar]
        exact Char.utf8Size_pos char
      rw [List.flatMap_cons, List.length_append, List.length_cons]
      omega

/-! ## When a password is accepted -/

namespace PolicySetup

variable {setup : PolicySetup} {password : String}

/-- The condition is exact: otherwise validation goes by other values, or
fails. -/
theorem findsSettings_iff : setup.FindsSettings ↔
    lookupPolicy setup.casts setup.catalog setup.role.rolname setup.server =
      .ok setup.policy :=
  (lookupPolicy_eq_iff setup.isCatalog setup.listed setup.configured
    setup.server).symm

/-- A role that can log in, whose settings come before any look-alike, and
whose minimum length is spelled as `::int` reads it. -/
theorem findsSettings_of_own (login : setup.role.rolcanlogin = true)
    (own : ∀ rule : Rule, ∀ setting ∈ setup.settings.find? (fun other =>
      rule.fits other.text), setting.name = rule.setting)
    (length : ∀ setting ∈ setup.settings,
      setting.name = Rule.minLength.setting →
      setup.casts.toInt (splitPartSecond setting.text '=') =
        setup.casts.gucInt setting.value) : setup.FindsSettings := by
  have boolean : ∀ rule : Rule, rule ≠ .minLength → ∀ server,
      FindsValue setup.casts.toBool setup.role setup.settings rule server
        (effectiveBool setup.settings rule server) := by
    intro rule other
    apply findsValue_of_own login
    intro setting first
    have named := own rule setting first
    rcases Option.isSome_iff_exists.mp (setup.configured.boolean setting
      (List.mem_of_find?_eq_some first) rule other named) with ⟨value, parsed⟩
    exact ⟨named, value, parsed, toBool_setting parsed⟩
  have minLength := @findsValue_of_own setup.role setup.settings .minLength _
    setup.casts.toInt setup.casts.gucInt login
    (by
      intro setting first
      have member := List.mem_of_find?_eq_some first
      have named := own .minLength setting first
      rcases setup.configured.length setting member named with
        ⟨value, parsed, _⟩
      exact ⟨named, value, parsed, (length setting member named).trans parsed⟩)
    setup.server.minLength
  exact ⟨minLength, boolean .requireUppercase (by decide) _,
    boolean .requireLowercase (by decide) _, boolean .requireDigit (by decide) _,
    boolean .requireSpecial (by decide) _,
    boolean .preventUsername (by decide) _⟩

theorem accepted_iff :
    setup.validatePassword password = .ok .accepted ↔
      (∃ policy, lookupPolicy setup.casts setup.catalog setup.role.rolname
          setup.server = .ok policy ∧
        contentChecks setup.validator.tables policy setup.role.rolname
          password = .ok ()) ∧
        setup.PassesRest password := by
  rw [validatePassword, Validator.validatePassword, Bypass.validatePassword,
    setup.enforced, if_neg Bool.false_ne_true]
  constructor
  · intro accepted
    rcases Lockout.map_eq_ok accepted with ⟨⟨⟩, passed, _⟩
    rw [Validator.checks] at passed
    rcases bind_eq_ok passed with ⟨_, plain, passed⟩
    rcases bind_eq_ok passed with ⟨policy, read, passed⟩
    rcases bind_eq_ok passed with ⟨_, content, passed⟩
    rcases bind_eq_ok passed with ⟨blacklisted, found, passed⟩
    rcases bind_eq_ok passed with ⟨⟨⟩, unlisted, passed⟩
    rcases bind_eq_ok passed with ⟨⟨⟩, recent, passed⟩
    rcases bind_eq_ok passed with ⟨⟨⟩, reuse, passed⟩
    rcases bind_eq_ok passed with ⟨answer, asked, unvetoed⟩
    cases found
    refine ⟨⟨policy, read, content⟩, hashLikeCheck_eq_ok_iff.mp plain, ?_,
      ⟨recent, reuse⟩, answer, asked, unvetoed⟩
    simpa using blacklistCheck_eq_ok_iff.mp unlisted
  · intro met
    rcases met with ⟨⟨policy, read, content⟩, plain, unlisted, history,
      answer, asked, unvetoed⟩
    have listed : (setup.reads password).blacklisted = .ok false := by
      rw [reads]
      simpa using unlisted
    have lookup : (setup.reads password).policy = .ok policy := read
    have custom : (setup.reads password).customCheck = .ok answer := asked
    rw [Validator.checks, hashLikeCheck_eq_ok_iff.mpr plain, lookup, listed,
      custom]
    simp only [bind, Except.bind, content, blacklistCheck_eq_ok_iff.mpr,
      history.recent, history.reuse, unvetoed]
    rfl

theorem accepted_iff_of_finds (finds : setup.FindsSettings) :
    setup.validatePassword password = .ok .accepted ↔
      setup.policy.minLength ≤ (utf8Bytes password).length ∧
        setup.PassesOthers password := by
  have read := findsSettings_iff.mp finds
  have inRange : LengthInRange setup.policy.minLength :=
    effective_inRange setup.configured setup.inRange
  rw [accepted_iff]
  constructor
  · intro met
    rcases met with ⟨⟨policy, looked, content⟩, rest⟩
    rw [read] at looked
    cases looked
    rcases contentChecks_eq_ok_iff.mp content with ⟨long, characters, username⟩
    exact ⟨(asUsize_of_inRange inRange _).mp long, rest, characters, username⟩
  · intro met
    rcases met with ⟨long, others⟩
    exact ⟨⟨setup.policy, read,
      contentChecks_eq_ok_iff.mpr ⟨(asUsize_of_inRange inRange _).mpr long,
        others.characters, others.username⟩⟩, others.toPassesRest⟩

theorem enforcesPolicy_of_not_rest (fails : ¬setup.PassesRest password) :
    setup.EnforcesPolicy password where
  sound accepted := absurd (accepted_iff.mp accepted).2 fails
  complete _ plain unlisted _ history notVetoed :=
    absurd ⟨plain, unlisted, history, notVetoed⟩ fails

/-- Where the queries find the settings of the role, or do not matter, an
accepted password meets the policy and conversely, except that bytes count as
characters. -/
theorem enforcesPolicy_iff
    (finds : setup.PassesRest password → setup.FindsSettings) :
    setup.EnforcesPolicy password ↔ ¬setup.AdmitsShort password := by
  by_cases rest : setup.PassesRest password
  · have accepted := @accepted_iff_of_finds setup password (finds rest)
    constructor
    · intro enforces short
      rcases short with ⟨few, enough, others⟩
      have meets := (enforces.sound (accepted.mpr ⟨enough, others⟩)).1
      exact absurd meets.length (not_le.mpr few)
    · intro long
      constructor
      · intro passed
        rcases accepted.mp passed with ⟨enough, others⟩
        refine ⟨⟨?_, others.characters⟩, others.notHashLike, others.unlisted⟩
        by_contra few
        exact long ⟨not_le.mp few, enough, others⟩
      · intro meets plain unlisted username history notVetoed
        have bytes := length_le_utf8Bytes password
        have enough := meets.length
        exact accepted.mpr ⟨by omega, rest, meets.characters, username⟩
  · apply iff_of_true (enforcesPolicy_of_not_rest rest)
    intro short
    exact rest short.2.2.toPassesRest

end PolicySetup

/-! ## Two passwords -/

def decimal (text : String) : Option Int :=
  if text.toList.all Char.isDigit && !text.toList.isEmpty then
    some (text.toList.foldl (fun value digit =>
      10 * value + (digit.toNat - '0'.toNat)) 0)
  else none

def SqlCasts.plain : SqlCasts where
  toInt := decimal
  toBool := parseBool
  gucInt := decimal
  toBool_parsed _ _ parsed := parsed

theorem decimal_separated {text : String} {value : Int}
    (read : decimal text = some value) : '=' ∉ text.toList := by
  intro member
  rw [decimal, Option.ite_none_right_eq_some, Bool.and_eq_true] at read
  exact absurd (List.all_eq_true.mp read.1.1 _ member) (by decide)

def aliceRole (settings : List Setting) : Role :=
  ⟨"alice", true, false, settings.map Setting.text⟩

def roleSetup (settings : List Setting)
    (configured : PolicyConfigured .plain (aliceRole settings) settings)
    (enforced : bypassEnabled [aliceRole settings] "alice" = false) :
    PolicySetup where
  validator := .ascii ⟨0, 0, 0, 0, 10⟩
  casts := .plain
  catalog := [aliceRole settings]
  isCatalog := ⟨by simp, by
    intro role member
    rw [List.mem_singleton.mp member]
    change IsRoleName "alice"
    decide +kernel⟩
  role := aliceRole settings
  listed := List.mem_singleton_self _
  enforced := enforced
  settings := settings
  configured := configured
  server := ⟨8, false, false, false, false, false⟩
  inRange := by decide
  blacklist := ["123456"]
  custom _ := .ok none
  history := []
  scan := .oldestFirst
  now := 0

theorem roleSetup_finds {settings : List Setting}
    {configured : PolicyConfigured .plain (aliceRole settings) settings}
    {enforced : bypassEnabled [aliceRole settings] "alice" = false}
    (own : ∀ rule : Rule, ∀ setting ∈ settings.find? (fun other =>
      rule.fits other.text), setting.name = rule.setting) :
    (roleSetup settings configured enforced).FindsSettings := by
  apply PolicySetup.findsSettings_of_own rfl own
  intro setting member named
  rcases configured.length setting member named with ⟨value, read, _⟩
  have whole : '=' ∉ setting.value.toList := decimal_separated read
  rw [Setting.text, splitPartSecond_setting setting.separated whole]
  rfl

def aliceSettings : List Setting :=
  [⟨"password_profile.min_length", "6", by decide +kernel⟩,
    ⟨"password_profile.require_digit", "on", by decide +kernel⟩]

theorem alice_configured {others : List Setting}
    (other : ∀ setting ∈ others, ∀ rule : Rule, setting.name ≠ rule.setting) :
    PolicyConfigured .plain (aliceRole (aliceSettings ++ others))
      (aliceSettings ++ others) where
  setconfig := rfl
  length setting member named := by
    rcases List.mem_append.mp member with own | unrelated
    · refine ⟨6, ?_, by decide⟩
      clear member
      revert named
      revert setting
      decide
    · exact absurd named (other setting unrelated _)
  boolean setting member rule notLength named := by
    rcases List.mem_append.mp member with own | unrelated
    · have flags : ∀ setting ∈ aliceSettings,
          setting.name ≠ Rule.minLength.setting →
          (parseBool setting.value).isSome = true := by decide
      apply flags setting own
      rw [named]
      cases rule with
      | minLength => exact absurd rfl notLength
      | _ => decide
    · exact absurd named (other setting unrelated rule)

def aliceSetup : PolicySetup :=
  roleSetup (aliceSettings ++ []) (alice_configured nofun)
    (by decide +kernel)

theorem aliceSetup_finds : aliceSetup.FindsSettings :=
  roleSetup_finds (by
    intro rule
    cases rule <;> decide)

def lookAlikeSettings : List Setting :=
  [⟨"password1profile.min_length", "3", by decide +kernel⟩]

def lookAlikeSetup : PolicySetup :=
  roleSetup (aliceSettings ++ lookAlikeSettings)
    (alice_configured (by
      intro setting member rule
      cases rule <;> revert setting <;> decide +kernel))
    (by decide +kernel)

theorem lookAlikeSetup_enforcesPolicy :
    (lookAlikeSetup.settings.any fun setting =>
        Rule.minLength.fits setting.text &&
          setting.name != Rule.minLength.setting) = true ∧
      lookAlikeSetup.EnforcesPolicy "secret1" := by
  have finds : lookAlikeSetup.FindsSettings := roleSetup_finds (by
    intro rule
    cases rule <;> decide)
  refine ⟨by decide,
    (PolicySetup.enforcesPolicy_iff fun _ => finds).mpr fun short => ?_⟩
  exact absurd short.1 (by decide)

/-- Four characters of two bytes each, and a digit. -/
theorem aliceSetup_accepts_short :
    aliceSetup.FindsSettings ∧ "слон1".toList.length = 5 ∧
      aliceSetup.policy.minLength = 6 ∧
      aliceSetup.validatePassword "слон1" = .ok .accepted ∧
      ¬aliceSetup.EnforcesPolicy "слон1" := by
  have accepted : aliceSetup.validatePassword "слон1" = .ok .accepted := by
    decide
  refine ⟨aliceSetup_finds, by decide, by decide, accepted,
    fun enforces => ?_⟩
  have long := (enforces.sound accepted).1.length
  exact absurd long (by decide)

end PasswordProfile.PasswordChange
