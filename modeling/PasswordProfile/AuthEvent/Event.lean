import PasswordProfile.Username

/-! # Authentication events

An event as the hook offers it, the journal stores it and the ring holds it.
Kind and flags are raw bytes in shared memory and on disk; a value outside the
ones this build understands is corruption.
-/

namespace PasswordProfile.AuthEvent

abbrev EventId := Vector UInt8 16

structure SharedAuthEvent where
  eventId : EventId
  username : EncodedUsername
  timestamp : TimestampTz
  seq : Nat
  kind : UInt8
  generation : TimestampTz
  flags : UInt8
  deriving DecidableEq, Repr

def eventKindFailure : UInt8 := 1
def eventKindSuccess : UInt8 := 2
def eventKindGraceConsumed : UInt8 := 3

def eventFlagClearLoginAttempts : UInt8 := 0x01

def eventFlagsKnown : UInt8 := eventFlagClearLoginAttempts

inductive EventKind
  | failure
  | success
  | graceConsumed
  deriving DecidableEq, Repr

namespace EventKind

def fromRaw (raw : UInt8) : Option EventKind :=
  if raw = eventKindFailure then some .failure
  else if raw = eventKindSuccess then some .success
  else if raw = eventKindGraceConsumed then some .graceConsumed
  else none

end EventKind

structure EventFlags where
  raw : UInt8
  known : raw &&& ~~~eventFlagsKnown = 0
  deriving DecidableEq

namespace EventFlags

def none : EventFlags := ⟨0, by decide⟩

def clearLoginAttempts : EventFlags := ⟨eventFlagClearLoginAttempts, by decide⟩

def fromRaw (raw : UInt8) : Option EventFlags :=
  if known : raw &&& ~~~eventFlagsKnown = 0 then some ⟨raw, known⟩
  else Option.none

def clearsLoginAttempts (flags : EventFlags) : Bool :=
  flags.raw &&& eventFlagClearLoginAttempts != 0

def forAdmission (lockoutActive : Bool) : EventFlags :=
  if lockoutActive then clearLoginAttempts else none

@[simp] theorem fromRaw_raw (flags : EventFlags) :
    fromRaw flags.raw = some flags := by
  simp [fromRaw, flags.known]

end EventFlags

def SharedAuthEvent.empty : SharedAuthEvent where
  eventId := Vector.replicate 16 0
  username := EncodedUsername.zero
  timestamp := 0
  seq := 0
  kind := eventKindSuccess
  generation := 0
  flags := 0

end PasswordProfile.AuthEvent
