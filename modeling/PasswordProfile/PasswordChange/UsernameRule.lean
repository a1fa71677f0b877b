import PasswordProfile.Foundation.Lowercase
import PasswordProfile.PasswordChange.AcceptedPolicy

/-! # Passwords that contain the name of the role

The rule looks for the name in lowercase within the password in lowercase. A
capital sigma is lowered by what stands around it, so that the password may
contain the name and its lowercase form may not.
-/

namespace PasswordProfile.PasswordChange

open Bypass (Role Setting)
open Text SqlText

namespace PolicySetup

variable (setup : PolicySetup)

/-- No password that contains the name of the role is accepted, where the rule
is on. -/
def RejectsUsername : Prop :=
  setup.policy.preventUsername = true → ∀ password : String,
    setup.role.rolname.toList <:+: password.toList →
      setup.validatePassword password ≠ .ok .accepted

/-- The query does not read the rule as off where it is on: it sees the setting
of the role, and the first that fits its pattern does not say off. -/
structure SeesUsernameRule : Prop where
  visible : setup.role.rolcanlogin = true ∨
    ownText setup.settings .preventUsername = none ∨
    setup.server.preventUsername = true
  unmasked : setup.role.rolcanlogin = true → ∀ setting,
    setup.settings.find? (fun other =>
      Rule.preventUsername.fits other.text) = some setting →
    setup.casts.toBool (splitPartSecond setting.text '=') ≠ some false

def readsUsernameRule : Except String Bool :=
  castOr setup.casts.toBool "boolean"
    (ruleText setup.catalog setup.role.rolname .preventUsername)
    setup.server.preventUsername

variable {setup}

theorem server_of_unset (on : setup.policy.preventUsername = true)
    (unset : ownText setup.settings .preventUsername = none) :
    setup.server.preventUsername = true := by
  have effective : effectiveBool setup.settings .preventUsername
      setup.server.preventUsername = true := on
  rw [effectiveBool, unset] at effective
  exact effective

/-- The condition is exact: otherwise the rule is not applied. -/
theorem seesUsernameRule_iff (on : setup.policy.preventUsername = true) :
    setup.SeesUsernameRule ↔ setup.readsUsernameRule ≠ .ok false := by
  have text := ruleText_eq_first setup.isCatalog setup.listed
    setup.configured.setconfig .preventUsername
  rw [readsUsernameRule, text]
  cases login : setup.role.rolcanlogin with
  | false =>
      rw [if_neg Bool.false_ne_true, castOr, ne_eq, Except.ok.injEq,
        Bool.not_eq_false]
      constructor
      · intro sees
        rcases sees.visible with canLogin | unset | server
        · rw [login] at canLogin
          cases canLogin
        · exact server_of_unset on unset
        · exact server
      · intro server
        refine ⟨.inr (.inr server), fun canLogin => ?_⟩
        rw [login] at canLogin
        cases canLogin
  | true =>
      rw [if_pos rfl]
      cases first : setup.settings.find? (fun other =>
          Rule.preventUsername.fits other.text) with
      | none =>
          have server := server_of_unset on (unset_of_unfit first)
          refine iff_of_true ⟨.inl login, fun _ setting found => ?_⟩ ?_
          · rw [first] at found
            cases found
          · rw [Option.map_none, castOr, server]
            intro off
            cases off
      | some setting =>
          have unmasked : setup.SeesUsernameRule ↔
              setup.casts.toBool (splitPartSecond setting.text '=') ≠
                some false := by
            constructor
            · intro sees
              exact sees.unmasked login setting first
            · intro notOff
              refine ⟨.inl login, fun _ other found => ?_⟩
              rw [first] at found
              cases found
              exact notOff
          rw [unmasked, Option.map_some, castOr]
          cases setup.casts.toBool (splitPartSecond setting.text '=') with
          | none => simp
          | some value => simp

theorem username_of_accepted {password : String}
    (on : setup.policy.preventUsername = true) (sees : setup.SeesUsernameRule)
    (accepted : setup.validatePassword password = .ok .accepted) :
    ¬setup.validator.tables.toLowercase setup.role.rolname.toList <:+:
      setup.validator.tables.toLowercase password.toList := by
  rcases accepted_iff.mp accepted with ⟨⟨policy, looked, content⟩, _⟩
  have read : setup.readsUsernameRule = .ok policy.preventUsername :=
    preventUsername_of_lookup looked
  have notOff := (seesUsernameRule_iff on).mp sees
  have applied : policy.preventUsername = true := by
    rw [read] at notOff
    simpa using notOff
  have named := (setup.isCatalog.roles _ setup.listed).ne_empty
  exact (contentChecks_eq_ok_iff.mp content).2.2 applied
    (fun empty => named (String.toList_eq_nil_iff.mp empty))

end PolicySetup

/-! ## A server with no other rule -/

/-- The only role of a server that asks for one character and forbids the
name. -/
def nameRuleSetup (tables : CharacterTables) (username : String)
    (named : IsRoleName username) : PolicySetup where
  validator := { Validator.ascii ⟨0, 0, 0, 0, 10⟩ with tables }
  casts := .plain
  catalog := [⟨username, true, false, []⟩]
  isCatalog := ⟨by simp, by simpa using named⟩
  role := ⟨username, true, false, []⟩
  listed := List.mem_singleton_self _
  enforced := by simp [Bypass.bypassEnabled]
  settings := []
  configured := ⟨rfl, nofun, nofun⟩
  server := ⟨1, false, false, false, false, true⟩
  inRange := by decide
  blacklist := []
  custom _ := .ok none
  history := []
  scan := .oldestFirst
  now := 0

section NameRule

variable {tables : CharacterTables} {username : String}
  (named : IsRoleName username)

theorem nameRuleSetup_finds :
    (nameRuleSetup tables username named).FindsSettings :=
  PolicySetup.findsSettings_of_own rfl (fun _ => nofun) nofun

theorem nameRuleSetup_sees :
    (nameRuleSetup tables username named).SeesUsernameRule where
  visible := .inl rfl
  unmasked _ _ := nofun

theorem nameRuleSetup_accepts {password : String}
    (nonempty : 0 < (utf8Bytes password).length)
    (plain : isHashLike tables.toCaseTables password = some false)
    (unlike : ¬tables.toLowercase username.toList <:+:
      tables.toLowercase password.toList) :
    (nameRuleSetup tables username named).validatePassword password =
      .ok .accepted := by
  have long : (nameRuleSetup tables username named).policy.minLength ≤
      (utf8Bytes password).length := Int.toNat_le.mp nonempty
  exact (PolicySetup.accepted_iff_of_finds (nameRuleSetup_finds named)).mpr
    ⟨long, ⟨plain, nofun, ⟨rfl, rfl⟩, none, rfl, rfl⟩,
      ⟨nofun, nofun, nofun, nofun⟩, fun _ _ => unlike⟩

/-- A name whose lowercase form depends on what stands around it is accepted in
some password. -/
theorem nameRuleSetup_accepts_name (casing : tables.AsciiCasing)
    (depends : tables.dependsOnSurroundings username.toList = true) :
    ¬(nameRuleSetup tables username named).RejectsUsername := by
  intro rejects
  rcases CaseTables.exists_toLowercase_not_infix casing depends with
    ⟨first, start, after, unlike⟩
  let password := String.ofList (first :: (username.toList ++ after))
  have chars : password.toList = first :: (username.toList ++ after) :=
    String.toList_ofList
  have sigma : 'Σ' ∈ password.toList := by
    rw [chars]
    exact List.mem_cons_of_mem _ (List.mem_append_left _
      (CaseTables.sigma_mem_of_dependsOnSurroundings depends))
  have notHex : password.toList.all isAsciiHexdigit = false := by
    rw [List.all_eq_false]
    exact ⟨'Σ', sigma, by decide⟩
  have traits : first.toNat < 128 ∧ first.toLower = first ∧
      first ∉ ['m', '$', 's', 'p'] := by
    rcases List.mem_pair.mp start with blank | letter
    · subst blank
      decide
    · subst letter
      decide
  rcases traits with ⟨ascii, small, notStart⟩
  have plain := isHashLike_eq_false tables.toCaseTables chars ascii small
    notStart notHex
  have nonempty : 0 < (utf8Bytes password).length := by
    have bytes := length_le_utf8Bytes password
    rw [chars, List.length_cons] at bytes
    omega
  refine rejects rfl password ?_ (nameRuleSetup_accepts named nonempty plain ?_)
  · rw [chars]
    exact ⟨[first], after, rfl⟩
  · rw [chars]
    exact unlike

end NameRule

/-- Where the query sees the rule, a name is kept out of every password exactly
when its lowercase form does not depend on what stands around it. -/
theorem rejectsUsername_iff {tables : CharacterTables} {username : String}
    (casing : tables.AsciiCasing) (named : IsRoleName username) :
    (∀ setup : PolicySetup, setup.validator.tables = tables →
      setup.role.rolname = username → setup.SeesUsernameRule →
        setup.RejectsUsername) ↔
      tables.dependsOnSurroundings username.toList = false := by
  constructor
  · intro rejects
    by_contra depends
    exact nameRuleSetup_accepts_name named casing
      ((Bool.not_eq_false _).mp depends)
      (rejects _ rfl rfl (nameRuleSetup_sees named))
  · intro stable setup sameTables sameName sees on password contained accepted
    subst sameTables sameName
    exact PolicySetup.username_of_accepted on sees accepted
      (CaseTables.toLowercase_infix stable contained)

/-! ## Two Greek names -/

def greekLower (char : Char) : Char :=
  if 'Α' ≤ char ∧ char ≤ 'Ω' then Char.ofNat (char.toNat + 32) else char

theorem greekLower_other {char : Char} (other : 128 ≤ char.toNat) :
    128 ≤ (greekLower char).toNat := by
  rw [greekLower]
  split
  · next capital =>
      have low : char.toNat ≤ 937 := UInt32.le_iff_toNat_le.mp capital.2
      have valid : (char.toNat + 32).isValidChar := .inl (by omega)
      have code : (Char.ofNat (char.toNat + 32)).toNat = char.toNat + 32 := by
        rw [Char.ofNat, dif_pos valid]
        exact UInt32.toNat_ofNatLT
      omega
  · exact other

/-- The tables on ASCII and on the Greek letters without marks. -/
def CharacterTables.greek : CharacterTables where
  lowercase char :=
    if char.toNat < 128 then [char.toLower] else [greekLower char]
  cased char := char.isAlpha || ('Α' ≤ char && char ≤ 'ω')
  caseIgnorable char := ['\x27', '.', ':', '^', '_', '\x60'].contains char
  lowercase_ascii := fun _ ascii => if_pos ascii
  lowercase_other := by
    intro char other
    rw [if_neg (Nat.not_lt.mpr other)]
    exact CaseTables.lowercase_other_of_single (greekLower_other other)
  isUppercase char := char.isUpper || ('Α' ≤ char && char ≤ 'Ω')
  isLowercase char := char.isLower || ('α' ≤ char && char ≤ 'ω')
  isAlphanumeric char := char.isAlphanum || ('Α' ≤ char && char ≤ 'ω')

theorem CharacterTables.greek_casing : CharacterTables.greek.AsciiCasing :=
  ⟨by decide, by decide, by decide, by decide⟩

/-- The sigma at the start of the name stands before a letter of the name. -/
theorem greekName_rejected :
    ∃ named : IsRoleName "ΣΑΠΦΩ",
      (nameRuleSetup .greek "ΣΑΠΦΩ" named).policy.preventUsername = true ∧
      (nameRuleSetup .greek "ΣΑΠΦΩ" named).RejectsUsername := by
  have named : IsRoleName "ΣΑΠΦΩ" := by decide +kernel
  have rejects := (rejectsUsername_iff CharacterTables.greek_casing named).mpr
    (by decide)
  exact ⟨named, rfl, rejects _ rfl rfl (nameRuleSetup_sees named)⟩

/-- The sigma at the end of the name is not at the end of the password. -/
theorem greekName_accepted :
    ∃ named : IsRoleName "ΟΔΟΣ",
      (nameRuleSetup .greek "ΟΔΟΣ" named).policy.preventUsername = true ∧
      "ΟΔΟΣ".toList <:+: "ΟΔΟΣΑ".toList ∧
      (nameRuleSetup .greek "ΟΔΟΣ" named).validatePassword "ΟΔΟΣΑ" =
        .ok .accepted ∧
      ¬(nameRuleSetup .greek "ΟΔΟΣ" named).RejectsUsername := by
  have named : IsRoleName "ΟΔΟΣ" := by decide +kernel
  have contained : "ΟΔΟΣ".toList <:+: "ΟΔΟΣΑ".toList := by decide
  have accepted :
      (nameRuleSetup .greek "ΟΔΟΣ" named).validatePassword "ΟΔΟΣΑ" =
        .ok .accepted :=
    nameRuleSetup_accepts named (by decide) (by decide)
      (by decide)
  exact ⟨named, rfl, contained, accepted,
    fun rejects => rejects rfl "ΟΔΟΣΑ" contained accepted⟩

end PasswordProfile.PasswordChange
