import PasswordProfile.Foundation.Interaction
import PasswordProfile.PasswordChange.HashLike

/-! # The password check hook

PostgreSQL calls the hook before it sets a role password; the change happens
exactly when the hook returns. The strings are C strings in the encoding of the
server. Validation and recording, which run SQL, are calls with any answer.
-/

namespace PasswordProfile.PasswordChange

open Interaction Text

structure CString where
  bytes : List UInt8
  nulFree : 0 ∉ bytes

/-- `CStr::to_str`. -/
def CString.toStr (string : CString) : Option String :=
  String.fromUTF8? string.bytes.toByteArray

inductive PasswordType
  | plaintext
  | md5
  | scramSha256
  deriving DecidableEq, Repr

structure Arguments where
  username : Option CString
  shadowPass : Option CString
  passwordType : PasswordType
  validuntilTime : UInt64
  validuntilNull : Bool

inductive ValidationOutcome
  | accepted
  | bypassed
  deriving DecidableEq, Repr

/-- A call into the database returns a result or raises an error itself. -/
inductive Attempt (Result : Type)
  | finished (result : Except String Result)
  | raised

inductive PreviousHook
  | returned
  | raised
  deriving DecidableEq, Repr

inductive Call
  | myDatabaseId
  | getDatabaseName (id : UInt32)
  | validatePassword (username password : String)
  | logPasswordValidation (username : String) (reason : Option String)
      (accepted : Bool)
  | previousHook (arguments : Arguments)
  | recordPasswordChangeInternal (username password : String)

abbrev Call.Answer : Call → Type
  | myDatabaseId => UInt32
  | getDatabaseName _ => Option CString
  | validatePassword .. => Attempt ValidationOutcome
  | logPasswordValidation .. => Unit
  | previousHook _ => PreviousHook
  | recordPasswordChangeInternal .. => Attempt Bool

inductive Raised
  | passwordChange (reason : String)
  | error (message : String)
  | database
  | previousHook
  | panicked
  deriving DecidableEq, Repr

inductive Outcome
  | returned
  | raised (error : Raised)
  deriving DecidableEq, Repr

abbrev Hook (Result : Type) := Program Call Call.Answer Result

def perform (call : Call) : Hook call.Answer := Program.perform call

def raisePasswordChangeError (reason : String) : Raised :=
  .passwordChange (String.ofList (reason.toList.filter (· ≠ '\x00')))

def invalidOid : UInt32 := 0

def controlDatabase : List UInt8 := utf8Bytes "postgres"

def requireControlDatabase : Hook (Option Raised) := do
  let id ← perform .myDatabaseId
  if id = invalidOid then
    return some (.error ("password_profile: password changes require a " ++
      "database connection; connect to the \"postgres\" database and retry"))
  let name ← perform (.getDatabaseName id)
  match name with
  | none =>
      return some (.error ("password_profile: could not determine the " ++
        "current database; password changes must be performed while " ++
        "connected to \"postgres\""))
  | some name =>
      if name.bytes ≠ controlDatabase then
        return some (.error ("password_profile: password changes must be " ++
          "performed while connected to the \"postgres\" database"))
      else return none

def rejectHash (tables : CaseTables) (password : String) : Option Raised :=
  if password.toList.isEmpty then none
  else
    match isHashLike tables password with
    | none => some .panicked
    | some true => some (raisePasswordChangeError
        ("Password looks like a precomputed hash. Direct hash input is " ++
          "not allowed. Use plain text passwords only."))
    | some false => none

def validateCandidate (passwordType : PasswordType)
    (username password : String) :
    Hook (Except Raised (Option ValidationOutcome)) := do
  if passwordType = .plaintext && !password.toList.isEmpty then
    match ← perform (.validatePassword username password) with
    | .raised => return .error .database
    | .finished (.error reason) =>
        perform (.logPasswordValidation username (some reason) false)
        return .error (raisePasswordChangeError reason)
    | .finished (.ok outcome) =>
        perform (.logPasswordValidation username none true)
        return .ok (some outcome)
  else return .ok none

def callPrevCheckPasswordHook (installed : Bool) (arguments : Arguments) :
    Hook PreviousHook := do
  if installed then perform (.previousHook arguments)
  else return .returned

def recordAccepted (outcome : Option ValidationOutcome)
    (username password : String) : Hook Outcome := do
  if outcome = some .accepted then
    match ← perform (.recordPasswordChangeInternal username password) with
    | .raised => return .raised .database
    | .finished (.error message) =>
        return .raised (raisePasswordChangeError
          ("Password change could not be recorded: " ++ message))
    | .finished (.ok _) => return .returned
  else return .returned

def checkPassword (tables : CaseTables) (installed : Bool)
    (arguments : Arguments) (username password : String) : Hook Outcome := do
  match rejectHash tables password with
  | some error => return .raised error
  | none =>
      match ← requireControlDatabase with
      | some error => return .raised error
      | none =>
          match ← validateCandidate arguments.passwordType username
              password with
          | .error error => return .raised error
          | .ok outcome =>
              match ← callPrevCheckPasswordHook installed arguments with
              | .raised => return .raised .previousHook
              | .returned => recordAccepted outcome username password

def Arguments.usernameStr (arguments : Arguments) : String :=
  (arguments.username.bind CString.toStr).getD "unknown"

def Arguments.passwordStr (arguments : Arguments) : String :=
  (arguments.shadowPass.bind CString.toStr).getD ""

/-- `installed` tells whether there is a previous hook. -/
def passwordCheckHook (tables : CaseTables) (installed : Bool)
    (arguments : Arguments) : Hook Outcome :=
  checkPassword tables installed arguments arguments.usernameStr
    arguments.passwordStr

end PasswordProfile.PasswordChange
