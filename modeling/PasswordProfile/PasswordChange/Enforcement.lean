import PasswordProfile.PasswordChange.PasswordCheckHook

/-! # Every password that is set has been validated and recorded

PostgreSQL's own classification of a password is a parameter: what is known is
the form of an MD5 hash and the start of a SCRAM secret.
-/

namespace PasswordProfile.PasswordChange

open Interaction Text

structure Classifier where
  md5Digit : UInt8 → Bool
  md5Digit_hex : ∀ byte, md5Digit byte = true → isHexByte byte = true
  scramSecret : List UInt8 → Bool
  scramSecret_start : ∀ bytes, scramSecret bytes = true →
    utf8Bytes "SCRAM-SHA-256$" <+: bytes

namespace Classifier

def md5Hash (classifier : Classifier) (bytes : List UInt8) : Bool :=
  (utf8Bytes "md5").isPrefixOf bytes && bytes.length = 35 &&
    (bytes.drop 3).all classifier.md5Digit

/-- PostgreSQL's `get_password_type`. -/
def getPasswordType (classifier : Classifier) (shadowPass : CString) :
    PasswordType :=
  if classifier.md5Hash shadowPass.bytes then .md5
  else if classifier.scramSecret shadowPass.bytes then .scramSha256
  else .plaintext

end Classifier

structure Request where
  roleName : CString
  password : CString
  nonempty : password.bytes ≠ []
  validuntilTime : UInt64
  validuntilNull : Bool

def Request.arguments (request : Request) (classifier : Classifier) :
    Arguments where
  username := some request.roleName
  shadowPass := some request.password
  passwordType := classifier.getPasswordType request.password
  validuntilTime := request.validuntilTime
  validuntilNull := request.validuntilNull

abbrev HookExchange := Exchange Call.Answer

@[simp] def HookExchange.isRecord : HookExchange → Bool
  | ⟨.recordPasswordChangeInternal .., _⟩ => true
  | _ => false

def Exempt (request : Request) (trace : List HookExchange) : Prop :=
  ∃ username password, utf8Bytes username = request.roleName.bytes ∧
    ⟨.validatePassword username password,
      .finished (.ok .bypassed)⟩ ∈ trace

/-- Exactly these bytes were accepted for exactly this role, and were recorded
once, after the previous hook had returned. -/
structure Recorded (request : Request) (installed : Bool)
    (arguments : Arguments) (trace : List HookExchange)
    (username password : String) : Prop where
  sameRole : utf8Bytes username = request.roleName.bytes
  samePassword : utf8Bytes password = request.password.bytes
  accepted : ⟨.validatePassword username password,
    .finished (.ok .accepted)⟩ ∈ trace
  recorded : ∃ before inserted after, trace = before ++
    ⟨.recordPasswordChangeInternal username password,
      .finished (.ok inserted)⟩ :: after ∧
    (installed = true →
      ⟨.previousHook arguments, PreviousHook.returned⟩ ∈ before)
  once : trace.countP HookExchange.isRecord = 1

/-- What is promised of one run: an error, or a plaintext password that is
exempt or recorded. -/
def Honoured (classifier : Classifier) (request : Request) (installed : Bool)
    (run : List HookExchange × Outcome) : Prop :=
  (∃ error, run.2 = .raised error) ∨
    classifier.getPasswordType request.password = .plaintext ∧
      (Exempt request run.1 ∨ ∃ username password,
        Recorded request installed (request.arguments classifier) run.1
          username password)

/-! ## Conversion -/

theorem toStr_eq_some_iff {string : CString} {text : String} :
    string.toStr = some text ↔ utf8Bytes text = string.bytes :=
  fromUTF8?_eq_some_iff

theorem isHashLike_of_hashed (tables : CaseTables) {classifier : Classifier}
    {shadowPass : CString} {text : String}
    (bytes : utf8Bytes text = shadowPass.bytes)
    (hashed : classifier.getPasswordType shadowPass ≠ .plaintext) :
    isHashLike tables text = some true := by
  rw [Classifier.getPasswordType] at hashed
  split at hashed
  · next md5 =>
      simp only [Classifier.md5Hash, Bool.and_eq_true, decide_eq_true_eq,
        List.all_eq_true] at md5
      rcases md5 with ⟨⟨starts, length⟩, digits⟩
      rcases List.isPrefixOf_iff_prefix.mp starts with ⟨rest, append⟩
      rw [← append] at bytes length digits
      rw [List.length_append] at length
      apply isHashLike_md5 tables bytes
      · exact Nat.add_left_cancel length
      · exact fun digit member => classifier.md5Digit_hex digit
          (digits digit member)
  · split at hashed
    · next scram =>
        apply isHashLike_scram
        rw [bytes]
        exact classifier.scramSecret_start _ scram
    · exact absurd rfl hashed

/-! ## Convertible requests -/

section Parts

variable {Result : Type} {Post : List HookExchange → Result → Prop}

theorem ensures_perform_bind {call : Call} {next : call.Answer → Hook Result} :
    (perform call >>= next).Ensures Post ↔ ∀ answer,
      (next answer).Ensures fun trace result =>
        Post (⟨call, answer⟩ :: trace) result :=
  Program.ensures_perform_bind

theorem requireControlDatabase_ensures :
    requireControlDatabase.Ensures fun trace _ =>
      trace.countP HookExchange.isRecord = 0 := by
  rw [requireControlDatabase, ensures_perform_bind]
  intro id
  split
  · rfl
  rw [ensures_perform_bind]
  intro name
  split
  · rfl
  split
  · rfl
  · rfl

theorem validateCandidate_ensures (username : String) {password : String}
    (nonempty : password.toList ≠ []) :
    (validateCandidate .plaintext username password).Ensures
      fun trace result => trace.countP HookExchange.isRecord = 0 ∧
        ∀ outcome, result = .ok outcome → ∃ verdict, outcome = some verdict ∧
          ⟨.validatePassword username password,
            .finished (.ok verdict)⟩ ∈ trace := by
  rw [validateCandidate, if_pos (by simpa using nonempty),
    ensures_perform_bind]
  intro answer
  split
  · exact ⟨rfl, nofun⟩
  · rw [ensures_perform_bind]
    intro _
    exact ⟨rfl, nofun⟩
  · next verdict =>
      rw [ensures_perform_bind]
      intro _
      refine ⟨rfl, fun outcome result => ⟨verdict, ?_, List.mem_cons_self⟩⟩
      cases result
      rfl

theorem callPrevCheckPasswordHook_ensures (installed : Bool)
    (arguments : Arguments) :
    (callPrevCheckPasswordHook installed arguments).Ensures
      fun trace answer => trace.countP HookExchange.isRecord = 0 ∧
        (answer = .returned → installed = true →
          ⟨.previousHook arguments, PreviousHook.returned⟩ ∈ trace) := by
  cases installed with
  | false => exact ⟨rfl, nofun⟩
  | true =>
      intro answer
      refine ⟨rfl, fun returned _ => ?_⟩
      rw [returned]
      exact List.mem_singleton_self _

theorem recordAccepted_ensures (username password : String) :
    (recordAccepted (some .accepted) username password).Ensures
      fun trace outcome => (∃ error, outcome = .raised error) ∨
        ∃ inserted, trace = [⟨.recordPasswordChangeInternal username password,
          .finished (.ok inserted)⟩] := by
  rw [recordAccepted, if_pos rfl, ensures_perform_bind]
  intro answer
  split
  · exact .inl ⟨_, rfl⟩
  · exact .inl ⟨_, rfl⟩
  · next inserted => exact .inr ⟨inserted, rfl⟩

end Parts

theorem checkPassword_ensures (tables : CaseTables) {classifier : Classifier}
    {request : Request} (installed : Bool) {username password : String}
    (plaintext : classifier.getPasswordType request.password = .plaintext)
    (sameRole : utf8Bytes username = request.roleName.bytes)
    (samePassword : utf8Bytes password = request.password.bytes) :
    (checkPassword tables installed (request.arguments classifier) username
      password).Ensures fun trace outcome =>
        Honoured classifier request installed (trace, outcome) := by
  have nonempty : password.toList ≠ [] := by
    intro empty
    apply request.nonempty
    rw [← samePassword, utf8Bytes_eq_flatMap, empty]
    rfl
  rw [checkPassword]
  split
  · exact .inl ⟨_, rfl⟩
  apply requireControlDatabase_ensures.bind
  intro control error controlSilent
  split
  · exact .inl ⟨_, rfl⟩
  have passwordType :
      (request.arguments classifier).passwordType = .plaintext := plaintext
  rw [passwordType]
  apply (validateCandidate_ensures username nonempty).bind
  intro validation result ensured
  rcases ensured with ⟨validationSilent, validated⟩
  split
  · exact .inl ⟨_, rfl⟩
  next outcome =>
  rcases validated outcome rfl with ⟨verdict, rfl, member⟩
  apply (callPrevCheckPasswordHook_ensures installed _).bind
  intro previous answer ensured
  rcases ensured with ⟨previousSilent, returned⟩
  split
  · exact .inl ⟨_, rfl⟩
  cases verdict with
  | bypassed =>
      exact .inr ⟨plaintext, .inl ⟨username, password, sameRole,
        by simp [member]⟩⟩
  | accepted =>
      apply (recordAccepted_ensures username password).mono
      intro later ending ensured
      rcases ensured with raises | ⟨inserted, rfl⟩
      · exact .inl raises
      refine .inr ⟨plaintext, .inr ⟨username, password, {
        sameRole := sameRole
        samePassword := samePassword
        accepted := by simp [member]
        recorded := ⟨control ++ (validation ++ previous), inserted, [],
          by simp, fun present => by simp [returned rfl present]⟩
        once := ?_ }⟩⟩
      simp only [List.countP_append, controlSilent, validationSilent,
        previousSilent]
      rfl

/-! ## Requests that the hook does not see as they are -/

def obliging : Environment Call.Answer := fun _ call =>
  match call with
  | .myDatabaseId => 5
  | .getDatabaseName _ => some ⟨controlDatabase, by decide⟩
  | .validatePassword .. => .finished (.ok .accepted)
  | .logPasswordValidation .. => ()
  | .previousHook _ => .returned
  | .recordPasswordChangeInternal .. => .finished (.ok true)

section Obliging

variable (history : List HookExchange)

theorem requireControlDatabase_obliging :
    (requireControlDatabase.run obliging history).2 = none := rfl

theorem validateCandidate_obliging (passwordType : PasswordType)
    (username password : String) : ∃ outcome,
    ((validateCandidate passwordType username password).run
      obliging history).2 = .ok outcome := by
  rw [validateCandidate]
  split
  · exact ⟨some .accepted, rfl⟩
  · exact ⟨none, rfl⟩

theorem callPrevCheckPasswordHook_obliging (installed : Bool)
    (arguments : Arguments) :
    ((callPrevCheckPasswordHook installed arguments).run
      obliging history).2 = .returned := by
  cases installed with
  | false => rfl
  | true => rfl

theorem recordAccepted_obliging (outcome : Option ValidationOutcome)
    (username password : String) :
    ((recordAccepted outcome username password).run
      obliging history).2 = .returned := by
  rw [recordAccepted]
  split
  · rfl
  · rfl

theorem checkPassword_obliging (tables : CaseTables) (installed : Bool)
    (arguments : Arguments) (username : String) {password : String}
    (notHash : rejectHash tables password = none) :
    ((checkPassword tables installed arguments username password).run
      obliging history).2 = .returned := by
  rw [checkPassword, notHash]
  dsimp only
  rw [Program.run_bind, requireControlDatabase_obliging]
  dsimp only
  rw [Program.run_bind]
  rcases validateCandidate_obliging _ arguments.passwordType username
    password with ⟨outcome, validated⟩
  rw [validated]
  dsimp only
  rw [Program.run_bind, callPrevCheckPasswordHook_obliging]
  exact recordAccepted_obliging ..

end Obliging

theorem not_exempt_obliging {request : Request} {hook : Hook Outcome} :
    ¬ Exempt request (hook.run obliging []).1 := by
  intro given
  rcases given with ⟨username, password, _, member⟩
  rcases Program.answer_of_mem_run member with ⟨earlier, answer⟩
  cases answer

theorem convertible_of_honoured {classifier : Classifier} {request : Request}
    {installed : Bool} {hook : Hook Outcome}
    (returned : (hook.run obliging []).2 = .returned)
    (honoured : Honoured classifier request installed
      (hook.run obliging [])) :
    request.roleName.toStr ≠ none ∧ request.password.toStr ≠ none := by
  rcases honoured with ⟨error, raised⟩ | ⟨_, exempt | ⟨username, password,
    recorded⟩⟩
  · rw [returned] at raised
    cases raised
  · exact absurd exempt not_exempt_obliging
  · rw [toStr_eq_some_iff.mpr recorded.sameRole,
      toStr_eq_some_iff.mpr recorded.samePassword]
    exact ⟨nofun, nofun⟩

theorem rejectHash_of_isHashLike {tables : CaseTables} {password : String}
    (hashLike : isHashLike tables password = some true) :
    ∃ error, rejectHash tables password = some error := by
  rw [rejectHash, hashLike]
  split
  · next empty =>
      rw [isHashLike, if_pos empty] at hashLike
      cases hashLike
  · exact ⟨_, rfl⟩

theorem rejectHash_eq_none {tables : CaseTables} {password : String}
    (notHashLike : isHashLike tables password ≠ some true) :
    rejectHash tables password = none := by
  rcases isHashLike_total tables password with ⟨verdict, found⟩
  rw [rejectHash, found]
  cases verdict with
  | true => exact absurd found notHashLike
  | false => exact ite_self none

/-- The hook keeps its promise, whatever validation, recording and the other
hook answer, exactly for a password that is valid UTF-8 and, unless the password
looks like a hash, a role name that is valid UTF-8. -/
theorem passwordCheckHook_honoured_iff (tables : CaseTables)
    (classifier : Classifier) (installed : Bool) (request : Request) :
    (∀ environment, Honoured classifier request installed
      ((passwordCheckHook tables installed
        (request.arguments classifier)).run environment [])) ↔
      ∃ password, request.password.toStr = some password ∧
        (request.roleName.toStr ≠ none ∨
          isHashLike tables password = some true) := by
  constructor
  · intro honoured
    have converted : rejectHash tables
        (request.arguments classifier).passwordStr = none →
        request.roleName.toStr ≠ none ∧ request.password.toStr ≠ none := by
      intro notHash
      exact convertible_of_honoured
        (checkPassword_obliging [] tables installed _ _ notHash)
        (honoured obliging)
    cases text : request.password.toStr with
    | none =>
        have empty : (request.arguments classifier).passwordStr = "" := by
          simp [Arguments.passwordStr, Request.arguments, text]
        rw [empty] at converted
        exact absurd text (converted rfl).2
    | some password =>
        have same : (request.arguments classifier).passwordStr = password := by
          simp [Arguments.passwordStr, Request.arguments, text]
        rw [same] at converted
        refine ⟨password, rfl, ?_⟩
        by_cases hashLike : isHashLike tables password = some true
        · exact .inr hashLike
        · exact .inl (converted (rejectHash_eq_none hashLike)).1
  · intro given environment
    rcases given with ⟨password, text, condition⟩
    have samePassword := toStr_eq_some_iff.mp text
    have passwordStr :
        (request.arguments classifier).passwordStr = password := by
      simp [Arguments.passwordStr, Request.arguments, text]
    rw [passwordCheckHook, passwordStr]
    by_cases hashLike : isHashLike tables password = some true
    · rcases rejectHash_of_isHashLike hashLike with ⟨error, rejected⟩
      rw [checkPassword, rejected]
      exact .inl ⟨error, rfl⟩
    · have plaintext :
          classifier.getPasswordType request.password = .plaintext := by
        by_contra hashed
        exact hashLike (isHashLike_of_hashed tables samePassword hashed)
      rcases Option.ne_none_iff_exists'.mp (condition.resolve_right hashLike)
        with ⟨username, role⟩
      have usernameStr :
          (request.arguments classifier).usernameStr = username := by
        simp [Arguments.usernameStr, Request.arguments, role]
      rw [usernameStr]
      exact (checkPassword_ensures tables installed plaintext
        (toStr_eq_some_iff.mp role) samePassword).run environment []

def asciiTables : CaseTables where
  lowercase char := if char.toNat < 128 then [char.toLower] else [char]
  cased := Char.isAlpha
  caseIgnorable _ := false
  lowercase_ascii := fun _ ascii => if_pos ascii
  lowercase_other := by
    intro char other
    rw [if_neg (Nat.not_lt.mpr other)]
    exact CaseTables.lowercase_other_of_single other

/-- A classifier by the start of a SCRAM secret. -/
def startClassifier : Classifier where
  md5Digit := isHexByte
  md5Digit_hex := fun _ hex => hex
  scramSecret := (utf8Bytes "SCRAM-SHA-256$").isPrefixOf
  scramSecret_start := fun _ => List.isPrefixOf_iff_prefix.mp

/-- The role `bob` gets the password `é` in a LATIN1 database. -/
def latin1Request : Request where
  roleName := ⟨[98, 111, 98], by decide⟩
  password := ⟨[0xE9], by decide⟩
  nonempty := by decide
  validuntilTime := 0
  validuntilNull := true

/-- It is set without having been validated or recorded. -/
theorem latin1Request_not_honoured :
    ((passwordCheckHook asciiTables false
        (latin1Request.arguments startClassifier)).run obliging []).2 =
      .returned ∧
    ¬ Honoured startClassifier latin1Request false
      ((passwordCheckHook asciiTables false
        (latin1Request.arguments startClassifier)).run obliging []) := by
  have returned : ((passwordCheckHook asciiTables false
      (latin1Request.arguments startClassifier)).run obliging []).2 =
        .returned := by decide
  have unconvertible : latin1Request.password.toStr = none := by
    decide
  refine ⟨returned, fun honoured => ?_⟩
  exact (convertible_of_honoured returned honoured).2 unconvertible

end PasswordProfile.PasswordChange
