import PasswordProfile.AuthEvent.Event
import PasswordProfile.Foundation.FixedArray

/-! # The authentication-event ring

A producer offers events at `head`; the worker claims the event at `tail`
without moving it, and only an acknowledgement advances `tail`. One slot always
stays empty, so equal indices mean an empty ring.
-/

namespace PasswordProfile.AuthEvent

open FixedArray

abbrev ringSlots : Nat := 1024

instance : NeZero ringSlots := ⟨by decide⟩

def u64Max : Nat := 2 ^ 64 - 1

/-- `u64::saturating_add(1)` -/
def saturatingIncrement (counter : Nat) : Nat := min (counter + 1) u64Max

/-- `i64::saturating_sub` -/
def saturatingSub (left right : Int) : Int :=
  max (-(2 ^ 63)) (min (2 ^ 63 - 1) (left - right))

structure ClaimToken where
  slot : Nat
  seq : Nat
  deriving DecidableEq, Repr

inductive QueueState
  | healthy
  | overflowed
  | corrupt
  deriving DecidableEq, Repr

namespace QueueState

def raw : QueueState → Int
  | healthy => 0
  | overflowed => 1
  | corrupt => 2

/-- An unknown raw value is read as the safest unavailable state. -/
def fromRaw (raw : Int) : QueueState :=
  if raw = 0 then healthy else if raw = 1 then overflowed else corrupt

@[simp] theorem fromRaw_raw (state : QueueState) : fromRaw state.raw = state := by
  cases state <;> rfl

end QueueState

inductive EnqueueOutcome
  | enqueued
  | durableOnly
  | unavailable
  deriving DecidableEq, Repr

def EnqueueOutcome.isDurable : EnqueueOutcome → Bool
  | enqueued | durableOnly => true
  | unavailable => false

inductive AckOutcome
  | acknowledged
  | stale
  | corrupt
  deriving DecidableEq, Repr

structure EnqueueStep where
  outcome : EnqueueOutcome
  shouldWarn : Bool
  deriving DecidableEq, Repr

structure AuthEventRing where
  head : Nat
  tail : Nat
  nextSeq : Nat
  accepted : Nat
  acknowledged : Nat
  rejected : Nat
  journaled : Nat
  durableOnly : Nat
  journalFailures : Nat
  /-- Raw `QueueState`, as it lies in shared memory. -/
  state : Int
  lastWarnedAt : TimestampTz
  events : Fin ringSlots → SharedAuthEvent

def queueWarnIntervalUs : Int := 60000000

namespace AuthEventRing

def new : AuthEventRing where
  head := 0
  tail := 0
  nextSeq := 1
  accepted := 0
  acknowledged := 0
  rejected := 0
  journaled := 0
  durableOnly := 0
  journalFailures := 0
  state := QueueState.healthy.raw
  lastWarnedAt := 0
  events := fun _ => SharedAuthEvent.empty

def indicesValid (ring : AuthEventRing) : Bool :=
  ring.head < ringSlots && ring.tail < ringSlots

def advance (index : Nat) : Nat := (index + 1) % ringSlots

def depth (ring : AuthEventRing) : Nat :=
  if ring.indicesValid then (ring.head + ringSlots - ring.tail) % ringSlots
  else 0

def queueState (ring : AuthEventRing) : QueueState :=
  QueueState.fromRaw ring.state

/-- Corrupt outranks Overflowed, and nothing here returns to Healthy. -/
def degradeTo (ring : AuthEventRing) (newState : QueueState) : AuthEventRing :=
  if newState ≠ .healthy then
    if newState = .corrupt ∨ ring.queueState = .healthy then
      { ring with state := newState.raw }
    else ring
  else ring

def shouldWarnNow (ring : AuthEventRing) (wasHealthy : Bool)
    (now : TimestampTz) : AuthEventRing × Bool :=
  if wasHealthy ∨ ring.lastWarnedAt = 0 ∨
      saturatingSub now ring.lastWarnedAt ≥ queueWarnIntervalUs then
    ({ ring with lastWarnedAt := now }, true)
  else (ring, false)

def slot (index : Nat) : Fin ringSlots := Fin.ofNat ringSlots index

def tryEnqueue (ring : AuthEventRing) (eventId : EventId)
    (username : EncodedUsername) (timestamp : TimestampTz) (kind flags : UInt8)
    (generation : TimestampTz) : AuthEventRing × EnqueueStep :=
  if ¬ring.indicesValid then
    (ring.degradeTo .corrupt, ⟨.unavailable, false⟩)
  else if ring.queueState = .corrupt then
    (ring, ⟨.unavailable, false⟩)
  else
    let nextHead := advance ring.head
    if nextHead = ring.tail then
      let wasHealthy := decide (ring.queueState = .healthy)
      let counted := { ring with
        rejected := saturatingIncrement ring.rejected
        durableOnly := saturatingIncrement ring.durableOnly }
      let (warned, shouldWarn) :=
        (counted.degradeTo .overflowed).shouldWarnNow wasHealthy timestamp
      (warned, ⟨.durableOnly, shouldWarn⟩)
    else if ring.nextSeq = u64Max then
      let counted :=
        { ring with rejected := saturatingIncrement ring.rejected }
      (counted.degradeTo .corrupt, ⟨.unavailable, false⟩)
    else
      ({ ring with
          nextSeq := ring.nextSeq + 1
          events := store ring.events ring.head
            { eventId, username, timestamp, seq := ring.nextSeq, kind,
              generation, flags }
          head := nextHead
          accepted := saturatingIncrement ring.accepted },
        ⟨.enqueued, false⟩)

/-- Copies out the oldest unacknowledged event without advancing `tail`. -/
def claim (ring : AuthEventRing) :
    AuthEventRing × Option (ClaimToken × SharedAuthEvent) :=
  if ¬ring.indicesValid then
    (ring.degradeTo .corrupt, none)
  else if ring.head = ring.tail then
    (ring, none)
  else
    let event := ring.events (slot ring.tail)
    (ring, some (⟨ring.tail, event.seq⟩, event))

/-- Advances `tail` past exactly the claimed event, if the token still matches
both its position and its sequence number. -/
def ack (ring : AuthEventRing) (token : ClaimToken) :
    AuthEventRing × AckOutcome :=
  if ¬ring.indicesValid then
    (ring.degradeTo .corrupt, .corrupt)
  else if ring.head = ring.tail then
    (ring, .stale)
  else if token.slot ≠ ring.tail then
    (ring, .stale)
  else if token.slot ≥ ringSlots then
    (ring.degradeTo .corrupt, .corrupt)
  else if (ring.events (slot token.slot)).seq ≠ token.seq then
    (ring, .stale)
  else
    let moved := { ring with
      tail := advance ring.tail
      acknowledged := saturatingIncrement ring.acknowledged }
    let drained := moved.head = moved.tail ∧ moved.queueState = .overflowed
    (if drained then { moved with state := QueueState.healthy.raw } else moved,
      .acknowledged)

end AuthEventRing

end PasswordProfile.AuthEvent
