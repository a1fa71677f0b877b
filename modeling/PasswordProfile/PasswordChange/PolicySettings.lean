import Mathlib.Data.List.Find
import PasswordProfile.PasswordChange.ValidatePassword

/-! # The settings behind the rules

Each rule has a setting of the server, and a role may have one of its own. The
queries of `validate_password` look for it in `pg_user`, by a pattern in which
an underscore stands for any character, and cast what follows the first equals
sign.
-/

namespace PasswordProfile.PasswordChange

open Bypass (IsCatalog Role Setting)
open SqlText

inductive Rule
  | minLength
  | requireUppercase
  | requireLowercase
  | requireDigit
  | requireSpecial
  | preventUsername
  deriving DecidableEq, Repr

def Rule.setting : Rule → String
  | minLength => "password_profile.min_length"
  | requireUppercase => "password_profile.require_uppercase"
  | requireLowercase => "password_profile.require_lowercase"
  | requireDigit => "password_profile.require_digit"
  | requireSpecial => "password_profile.require_special"
  | preventUsername => "password_profile.prevent_username"

/-- PostgreSQL's readers of a value: the casts of the queries, and the parser
of an integer setting, which admits more than the cast. -/
structure SqlCasts where
  toInt : String → Option Int
  toBool : String → Option Bool
  gucInt : String → Option Int
  toBool_parsed : ∀ text value, parseBool text = some value →
    toBool text = some value

/-! ## The queries -/

/-- `FROM pg_user, unnest(useconfig) AS config WHERE usename = $1`. -/
def userConfig (catalog : List Role) (username : String) : List String :=
  (catalog.filter fun role =>
    role.rolcanlogin && role.rolname == username).flatMap Role.setconfig

def Rule.fits (rule : Rule) (config : String) : Bool :=
  like (rule.setting ++ "=%").toList config.toList

/-- `SELECT split_part(config, '=', 2) … LIMIT 1`. -/
def ruleText (catalog : List Role) (username : String) (rule : Rule) :
    Option String :=
  ((userConfig catalog username).find? rule.fits).map (splitPartSecond · '=')

/-- `COALESCE` of the value of the role and that of the server. -/
def castOr (cast : String → Option Value) (type : String)
    (text : Option String) (server : Value) : Except String Value :=
  match text with
  | none => .ok server
  | some text =>
      match cast text with
      | some value => .ok value
      | none => .error s!"invalid input syntax for type {type}: {text}"

def lookupPolicy (casts : SqlCasts) (catalog : List Role) (username : String)
    (server : PasswordPolicy) : Except String PasswordPolicy := do
  let text := ruleText catalog username
  let minLength ←
    castOr casts.toInt "integer" (text .minLength) server.minLength
  let requireUppercase ← castOr casts.toBool "boolean"
    (text .requireUppercase) server.requireUppercase
  let requireLowercase ← castOr casts.toBool "boolean"
    (text .requireLowercase) server.requireLowercase
  let requireDigit ←
    castOr casts.toBool "boolean" (text .requireDigit) server.requireDigit
  let requireSpecial ← castOr casts.toBool "boolean"
    (text .requireSpecial) server.requireSpecial
  let preventUsername ← castOr casts.toBool "boolean"
    (text .preventUsername) server.preventUsername
  return ⟨minLength, requireUppercase, requireLowercase, requireDigit,
    requireSpecial, preventUsername⟩

/-! ## What the settings mean -/

def ownText (settings : List Setting) (rule : Rule) : Option String :=
  (settings.find? (·.name == rule.setting)).map Setting.value

def effectiveBool (settings : List Setting) (rule : Rule) (server : Bool) :
    Bool :=
  ((ownText settings rule).bind parseBool).getD server

def effectivePolicy (casts : SqlCasts) (settings : List Setting)
    (server : PasswordPolicy) : PasswordPolicy where
  minLength :=
    ((ownText settings .minLength).bind casts.gucInt).getD server.minLength
  requireUppercase :=
    effectiveBool settings .requireUppercase server.requireUppercase
  requireLowercase :=
    effectiveBool settings .requireLowercase server.requireLowercase
  requireDigit := effectiveBool settings .requireDigit server.requireDigit
  requireSpecial := effectiveBool settings .requireSpecial server.requireSpecial
  preventUsername :=
    effectiveBool settings .preventUsername server.preventUsername

/-- The range of `password_profile.min_length`. -/
def LengthInRange (minLength : Int) : Prop := 1 ≤ minLength ∧ minLength ≤ 128

instance (minLength : Int) : Decidable (LengthInRange minLength) :=
  inferInstanceAs (Decidable (_ ∧ _))

/-- A role as `ALTER ROLE … SET` leaves it, which checks the values. -/
structure PolicyConfigured (casts : SqlCasts) (role : Role)
    (settings : List Setting) : Prop where
  setconfig : role.setconfig = settings.map Setting.text
  length : ∀ setting ∈ settings, setting.name = Rule.minLength.setting →
    ∃ minLength, casts.gucInt setting.value = some minLength ∧
      LengthInRange minLength
  boolean : ∀ setting ∈ settings, ∀ rule : Rule, rule ≠ .minLength →
    setting.name = rule.setting → (parseBool setting.value).isSome = true

/-- What makes the query for a rule read this value: `pg_user` shows the role,
or the server has the value as well, and the first setting of the role that
fits the pattern, if any, casts to it. -/
structure FindsValue (cast : String → Option Value) (role : Role)
    (settings : List Setting) (rule : Rule) (server value : Value) : Prop where
  visible : role.rolcanlogin = true ∨ ownText settings rule = none ∨
    server = value
  first : role.rolcanlogin = true → ∀ setting,
    settings.find? (fun other => rule.fits other.text) = some setting →
    cast (splitPartSecond setting.text '=') = some value

structure FindsPolicy (casts : SqlCasts) (role : Role)
    (settings : List Setting) (server policy : PasswordPolicy) : Prop where
  minLength : FindsValue casts.toInt role settings .minLength
    server.minLength policy.minLength
  requireUppercase : FindsValue casts.toBool role settings .requireUppercase
    server.requireUppercase policy.requireUppercase
  requireLowercase : FindsValue casts.toBool role settings .requireLowercase
    server.requireLowercase policy.requireLowercase
  requireDigit : FindsValue casts.toBool role settings .requireDigit
    server.requireDigit policy.requireDigit
  requireSpecial : FindsValue casts.toBool role settings .requireSpecial
    server.requireSpecial policy.requireSpecial
  preventUsername : FindsValue casts.toBool role settings .preventUsername
    server.preventUsername policy.preventUsername

/-! ## The queries read the settings -/

section Queries

variable {casts : SqlCasts} {catalog : List Role} {role : Role}
  {settings : List Setting} {rule : Rule}

theorem userConfig_eq (isCatalog : IsCatalog catalog)
    (listed : role ∈ catalog) :
    userConfig catalog role.rolname =
      if role.rolcanlogin then role.setconfig else [] := by
  rw [userConfig]
  cases login : role.rolcanlogin with
  | true =>
      have only : catalog.filter (fun other =>
          other.rolcanlogin && other.rolname == role.rolname) =
          catalog.filter (· == role) := by
        apply List.filter_congr
        intro other member
        rw [Bool.eq_iff_iff, Bool.and_eq_true, beq_iff_eq, beq_iff_eq]
        constructor
        · intro found
          exact isCatalog.eq_of_rolname listed member found.2
        · intro same
          subst same
          exact ⟨login, rfl⟩
      have once := List.count_eq_one_of_mem
        (List.Nodup.of_map _ isCatalog.distinct) listed
      rw [only, List.filter_beq, once, List.replicate_one,
        List.flatMap_singleton]
      rfl
  | false =>
      have missing : catalog.filter (fun other =>
          other.rolcanlogin && other.rolname == role.rolname) = [] := by
        apply List.filter_eq_nil_iff.mpr
        intro other member found
        rw [Bool.and_eq_true, beq_iff_eq] at found
        rw [isCatalog.eq_of_rolname listed member found.2, login] at found
        cases found.1
      rw [missing]
      rfl

theorem fits_own {setting : Setting} (own : setting.name = rule.setting) :
    rule.fits setting.text = true := by
  rw [Rule.fits, Setting.text, own]
  exact like_setting rule.setting setting.value

theorem ruleText_eq_first (isCatalog : IsCatalog catalog)
    (listed : role ∈ catalog)
    (setconfig : role.setconfig = settings.map Setting.text) (rule : Rule) :
    ruleText catalog role.rolname rule =
      if role.rolcanlogin then
        (settings.find? fun setting => rule.fits setting.text).map
          fun setting => splitPartSecond setting.text '='
      else none := by
  rw [ruleText, userConfig_eq isCatalog listed]
  cases login : role.rolcanlogin with
  | true =>
      rw [if_pos rfl, if_pos rfl, setconfig, List.find?_map, Option.map_map]
      rfl
  | false => rfl

theorem unset_of_unfit
    (unfit : settings.find? (fun other => rule.fits other.text) = none) :
    ownText settings rule = none := by
  rw [List.find?_eq_none] at unfit
  rw [ownText, Option.map_eq_none_iff, List.find?_eq_none]
  intro setting member own
  exact unfit setting member (fits_own (beq_iff_eq.mp own))

theorem name_of_find {setting : Setting}
    (found : settings.find? (·.name == rule.setting) = some setting) :
    setting ∈ settings ∧ setting.name = rule.setting :=
  ⟨List.mem_of_find?_eq_some found, by
    simpa using List.find?_some found⟩

theorem find_name_of_fits {setting : Setting}
    (first : settings.find? (fun other => rule.fits other.text) = some setting)
    (own : setting.name = rule.setting) :
    settings.find? (·.name == rule.setting) = some setting := by
  rcases List.find?_eq_some_iff_append.mp first with
    ⟨_, before, after, split, unfit⟩
  apply List.find?_eq_some_iff_append.mpr
  refine ⟨beq_iff_eq.mpr own, before, after, split, ?_⟩
  intro other member
  rw [Bool.not_eq_true', beq_eq_false_iff_ne]
  intro named
  have fits := unfit other member
  rw [fits_own named] at fits
  cases fits

theorem castOr_eq_ok_iff {Value : Type} {cast : String → Option Value}
    {server value : Value} (isCatalog : IsCatalog catalog)
    (listed : role ∈ catalog)
    (setconfig : role.setconfig = settings.map Setting.text) (type : String)
    (unset : ownText settings rule = none → server = value) :
    castOr cast type (ruleText catalog role.rolname rule) server = .ok value ↔
      FindsValue cast role settings rule server value := by
  rw [ruleText_eq_first isCatalog listed setconfig]
  cases login : role.rolcanlogin with
  | false =>
      rw [if_neg Bool.false_ne_true, castOr, Except.ok.injEq]
      constructor
      · intro same
        refine ⟨.inr (.inr same), fun canLogin => ?_⟩
        rw [login] at canLogin
        cases canLogin
      · intro finds
        rcases finds.visible with canLogin | none | same
        · rw [login] at canLogin
          cases canLogin
        · exact unset none
        · exact same
  | true =>
      rw [if_pos rfl]
      cases first : settings.find? (fun other => rule.fits other.text) with
      | none =>
          have same := unset (unset_of_unfit first)
          refine iff_of_true (by rw [Option.map_none, castOr, same])
            ⟨.inl login, fun _ setting found => ?_⟩
          rw [first] at found
          cases found
      | some setting =>
          have finds : FindsValue cast role settings rule server value ↔
              cast (splitPartSecond setting.text '=') = some value := by
            constructor
            · intro finds
              exact finds.first login setting first
            · intro casted
              refine ⟨.inl login, fun _ other found => ?_⟩
              rw [first] at found
              cases found
              exact casted
          rw [finds, Option.map_some, castOr]
          cases cast (splitPartSecond setting.text '=') with
          | none => exact iff_of_false nofun nofun
          | some read => rw [Except.ok.injEq, Option.some.injEq]

theorem lookupPolicy_eq_ok_iff {username : String}
    {server policy : PasswordPolicy} :
    lookupPolicy casts catalog username server = .ok policy ↔
      castOr casts.toInt "integer" (ruleText catalog username .minLength)
          server.minLength = .ok policy.minLength ∧
        castOr casts.toBool "boolean"
          (ruleText catalog username .requireUppercase)
          server.requireUppercase = .ok policy.requireUppercase ∧
        castOr casts.toBool "boolean"
          (ruleText catalog username .requireLowercase)
          server.requireLowercase = .ok policy.requireLowercase ∧
        castOr casts.toBool "boolean" (ruleText catalog username .requireDigit)
          server.requireDigit = .ok policy.requireDigit ∧
        castOr casts.toBool "boolean"
          (ruleText catalog username .requireSpecial)
          server.requireSpecial = .ok policy.requireSpecial ∧
        castOr casts.toBool "boolean"
          (ruleText catalog username .preventUsername)
          server.preventUsername = .ok policy.preventUsername := by
  rw [lookupPolicy]
  constructor
  · intro read
    rcases bind_eq_ok read with ⟨minLength, length, read⟩
    rcases bind_eq_ok read with ⟨requireUppercase, uppercase, read⟩
    rcases bind_eq_ok read with ⟨requireLowercase, lowercase, read⟩
    rcases bind_eq_ok read with ⟨requireDigit, digit, read⟩
    rcases bind_eq_ok read with ⟨requireSpecial, special, read⟩
    rcases bind_eq_ok read with ⟨preventUsername, name, read⟩
    cases read
    exact ⟨length, uppercase, lowercase, digit, special, name⟩
  · intro reads
    rcases reads with ⟨length, uppercase, lowercase, digit, special, name⟩
    rw [length, uppercase, lowercase, digit, special, name]
    rfl

theorem effectiveBool_of_unset {server : Bool}
    (unset : ownText settings rule = none) :
    server = effectiveBool settings rule server := by
  rw [effectiveBool, unset]
  rfl

/-- The queries read the effective policy exactly when each of them finds the
value of its rule. -/
theorem lookupPolicy_eq_iff (isCatalog : IsCatalog catalog)
    (listed : role ∈ catalog)
    (configured : PolicyConfigured casts role settings)
    (server : PasswordPolicy) :
    lookupPolicy casts catalog role.rolname server =
        .ok (effectivePolicy casts settings server) ↔
      FindsPolicy casts role settings server
        (effectivePolicy casts settings server) := by
  have length := @castOr_eq_ok_iff catalog role settings .minLength _
    casts.toInt server.minLength
    (effectivePolicy casts settings server).minLength isCatalog listed
    configured.setconfig "integer" fun unset => by
      rw [effectivePolicy, unset]
      rfl
  have boolean := fun rule server => @castOr_eq_ok_iff catalog role settings
    rule _ casts.toBool server (effectiveBool settings rule server) isCatalog
    listed configured.setconfig "boolean" effectiveBool_of_unset
  rw [lookupPolicy_eq_ok_iff, length]
  constructor
  · intro reads
    rcases reads with ⟨length, uppercase, lowercase, digit, special, name⟩
    exact ⟨length, (boolean _ _).mp uppercase, (boolean _ _).mp lowercase,
      (boolean _ _).mp digit, (boolean _ _).mp special, (boolean _ _).mp name⟩
  · intro finds
    exact ⟨finds.minLength, (boolean _ _).mpr finds.requireUppercase,
      (boolean _ _).mpr finds.requireLowercase,
      (boolean _ _).mpr finds.requireDigit,
      (boolean _ _).mpr finds.requireSpecial,
      (boolean _ _).mpr finds.preventUsername⟩

theorem findsValue_of_own {Value : Type} {cast parse : String → Option Value}
    (login : role.rolcanlogin = true)
    (own : ∀ setting,
      settings.find? (fun other => rule.fits other.text) = some setting →
      setting.name = rule.setting ∧ ∃ value,
        parse setting.value = some value ∧
        cast (splitPartSecond setting.text '=') = some value)
    (server : Value) :
    FindsValue cast role settings rule server
      (((ownText settings rule).bind parse).getD server) where
  visible := .inl login
  first _ setting found := by
    rcases own setting found with ⟨named, value, parsed, casted⟩
    rw [ownText, find_name_of_fits found named, Option.map_some,
      Option.bind_some, parsed]
    exact casted

theorem toBool_setting {setting : Setting} {value : Bool}
    (parsed : parseBool setting.value = some value) :
    casts.toBool (splitPartSecond setting.text '=') = some value := by
  rw [Setting.text, splitPartSecond_setting setting.separated
    (parseBool_separated parsed)]
  exact casts.toBool_parsed _ _ parsed

theorem preventUsername_of_lookup {username : String}
    {server policy : PasswordPolicy}
    (read : lookupPolicy casts catalog username server = .ok policy) :
    castOr casts.toBool "boolean" (ruleText catalog username .preventUsername)
      server.preventUsername = .ok policy.preventUsername :=
  (lookupPolicy_eq_ok_iff.mp read).2.2.2.2.2

theorem effective_inRange {server : PasswordPolicy}
    (configured : PolicyConfigured casts role settings)
    (inRange : LengthInRange server.minLength) :
    LengthInRange (effectivePolicy casts settings server).minLength := by
  rw [effectivePolicy, ownText]
  cases found : settings.find? (·.name == Rule.minLength.setting) with
  | none => exact inRange
  | some setting =>
      rcases name_of_find found with ⟨member, own⟩
      rcases configured.length setting member own with ⟨value, parsed, ranged⟩
      rw [Option.map_some, Option.bind_some, parsed]
      exact ranged

end Queries

end PasswordProfile.PasswordChange
