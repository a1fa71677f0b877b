import PasswordProfile.AuthEvent.Event
import PasswordProfile.Foundation.Bytes

/-! # Journal records

One event is one fixed-size record: header, fields, padding and a keyed
checksum over all of it. The hash function is the `siphasher` crate's and stays
a parameter.
-/

namespace PasswordProfile.AuthJournal

open AuthEvent Bytes

inductive JournalError
  | io
  | corrupt (reason : String)
  deriving DecidableEq, Repr

/-- `b"PPJ1"` -/
def magic : List UInt8 := [0x50, 0x50, 0x4a, 0x31]

abbrev recordSize : Nat := 112

instance : NeZero recordSize := ⟨by decide⟩

abbrev checksumOffset : Nat := recordSize - 8
def hashKey0 : UInt64 := 0x70617373776f7264
def hashKey1 : UInt64 := 0x70726f66696c6531

structure Record where
  bytes : List UInt8
  sized : bytes.length = recordSize
  deriving DecidableEq

/-- `SipHasher13::new_with_keys`, one `write` and `finish`. -/
abbrev SipHasher13 := UInt64 → UInt64 → List UInt8 → UInt64

def header (event : SharedAuthEvent) : List UInt8 :=
  magic ++ (event.eventId.toList ++ (event.username.toList ++
    (i64LeBytes event.timestamp ++ (i64LeBytes event.generation ++
      [event.kind, event.flags, 0, 0]))))

theorem header_length (event : SharedAuthEvent) :
    (header event).length = checksumOffset := by
  simp only [header, magic, List.length_append, Vector.length_toList,
    i64LeBytes_length, List.length_cons, List.length_nil]
  rfl

/-- The end of the name as `decode` looks for it, apart from
`username_from_bytes`. -/
def usernameEnd (username : EncodedUsername) : Nat :=
  (username.toList.findIdx? (· == 0)).getD username.toList.length

def isInvalidUsername (username : EncodedUsername) : Bool :=
  usernameEnd username == 0 ||
    (String.fromUTF8? (username.toList.take
      (usernameEnd username)).toByteArray).isNone

theorem isInvalidUsername_iff (username : EncodedUsername) :
    isInvalidUsername username = true ↔
      usernameFromBytes username.toList = none := by
  have sameEnd : usernameEnd username =
      username.toList.findIdx (· == 0) := by
    rw [usernameEnd]
    cases found : username.toList.findIdx? (· == 0) with
    | none =>
        rw [List.findIdx?_eq_none_iff] at found
        rw [Option.getD_none, eq_comm, List.findIdx_eq_length]
        exact found
    | some index =>
        rw [List.findIdx?_eq_some_iff_findIdx_eq] at found
        exact found.2.symm
  rw [isInvalidUsername, sameEnd, usernameFromBytes]
  by_cases empty : username.toList.findIdx (· == 0) = 0
  · simp [empty]
  · simp [empty]

section

variable (sipHasher : SipHasher13)

def checksum (bytes : List UInt8) : UInt64 :=
  sipHasher hashKey0 hashKey1 bytes

def encode (event : SharedAuthEvent) : Record where
  bytes := header event ++
    leBytes 8 (checksum sipHasher (header event)).toNat
  sized := by
    rw [List.length_append, header_length, leBytes_length]
    rfl

def decode (record : Record) : Except JournalError SharedAuthEvent :=
  if record.bytes.take 4 ≠ magic then
    .error (.corrupt "auth journal record has an invalid header")
  else if (checksum sipHasher (record.bytes.take checksumOffset)).toNat ≠
      fromLeBytes (record.bytes.drop checksumOffset) then
    .error (.corrupt "auth journal record checksum mismatch")
  else
    let event : SharedAuthEvent :=
      { eventId := field record.bytes 4 16 (record.sized ▸ by decide)
        username := field record.bytes 20 lockUsernameBytes
          (record.sized ▸ by decide)
        timestamp := i64FromLeBytes ((record.bytes.drop 84).take 8)
        seq := 0
        kind := record.bytes.getD 100 0
        generation := i64FromLeBytes ((record.bytes.drop 92).take 8)
        flags := record.bytes.getD 101 0 }
    if isInvalidUsername event.username then
      .error (.corrupt "auth journal record has an invalid username")
    else if EventKind.fromRaw event.kind = none then
      .error (.corrupt "auth journal record has an unknown event kind")
    else if EventFlags.fromRaw event.flags = none then
      .error (.corrupt "auth journal record has unknown event flags")
    else .ok event

end

/-- An event as the producers build it: a role name, a kind and flags of this
build, no sequence number yet, and timestamps that fit their type. -/
structure Admissible (event : SharedAuthEvent) : Prop where
  username : ∃ name, IsRoleName name ∧ event.username = encodeUsername name
  kind : EventKind.fromRaw event.kind ≠ none
  flags : EventFlags.fromRaw event.flags ≠ none
  seq : event.seq = 0
  timestamp : InI64 event.timestamp
  generation : InI64 event.generation

/-- An event that survives the way through the journal. -/
structure Storable (event : SharedAuthEvent) : Prop where
  username : usernameFromBytes event.username.toList ≠ none
  kind : EventKind.fromRaw event.kind ≠ none
  flags : EventFlags.fromRaw event.flags ≠ none
  timestamp : InI64 event.timestamp
  generation : InI64 event.generation

/-- The sequence number belongs to the ring and is not written. -/
def stored (event : SharedAuthEvent) : SharedAuthEvent := { event with seq := 0 }

theorem Admissible.storable {event : SharedAuthEvent}
    (admissible : Admissible event) : Storable event where
  username := by
    rcases admissible.username with ⟨name, role, encoded⟩
    rw [encoded, usernameFromBytes_encodeUsername role]
    exact Option.some_ne_none name
  kind := admissible.kind
  flags := admissible.flags
  timestamp := admissible.timestamp
  generation := admissible.generation

theorem Admissible.stored_eq {event : SharedAuthEvent}
    (admissible : Admissible event) : stored event = event := by
  rw [stored, ← admissible.seq]

/-! ## Reading a record back -/

section

variable (sipHasher : SipHasher13) (event : SharedAuthEvent)

theorem encode_take_header :
    (encode sipHasher event).bytes.take checksumOffset = header event :=
  List.take_left' (header_length event)

theorem encode_drop_header :
    (encode sipHasher event).bytes.drop checksumOffset =
      leBytes 8 (checksum sipHasher (header event)).toNat :=
  List.drop_left' (header_length event)

theorem encode_take_magic :
    (encode sipHasher event).bytes.take 4 = magic := by
  simp only [encode, header, List.append_assoc]
  exact List.take_left' rfl

theorem encode_checksum :
    fromLeBytes ((encode sipHasher event).bytes.drop checksumOffset) =
      (checksum sipHasher (header event)).toNat := by
  rw [encode_drop_header, fromLeBytes_leBytes]
  exact Nat.mod_eq_of_lt (checksum sipHasher (header event)).toNat_lt

theorem encode_eventId (fits : 4 + 16 ≤ (encode sipHasher event).bytes.length) :
    field (encode sipHasher event).bytes 4 16 fits = event.eventId := by
  have layout : (encode sipHasher event).bytes = magic ++
      (event.eventId.toList ++ (event.username.toList ++
        (i64LeBytes event.timestamp ++ (i64LeBytes event.generation ++
          ([event.kind, event.flags, 0, 0] ++
            leBytes 8 (checksum sipHasher (header event)).toNat))))) := by
    simp only [encode, header, List.append_assoc]
  exact field_eq fits layout rfl

theorem encode_username
    (fits : 20 + lockUsernameBytes ≤ (encode sipHasher event).bytes.length) :
    field (encode sipHasher event).bytes 20 lockUsernameBytes fits =
      event.username := by
  have layout : (encode sipHasher event).bytes =
      (magic ++ event.eventId.toList) ++
        (event.username.toList ++
          (i64LeBytes event.timestamp ++ (i64LeBytes event.generation ++
            ([event.kind, event.flags, 0, 0] ++
              leBytes 8 (checksum sipHasher (header event)).toNat)))) := by
    simp only [encode, header, List.append_assoc]
  exact field_eq fits layout (by simp [magic])

theorem encode_timestamp :
    ((encode sipHasher event).bytes.drop 84).take 8 =
      i64LeBytes event.timestamp := by
  have layout : (encode sipHasher event).bytes =
      (magic ++ (event.eventId.toList ++ event.username.toList)) ++
        (i64LeBytes event.timestamp ++ (i64LeBytes event.generation ++
          ([event.kind, event.flags, 0, 0] ++
            leBytes 8 (checksum sipHasher (header event)).toNat))) := by
    simp only [encode, header, List.append_assoc]
  rw [layout]
  exact take_drop_middle _ _ _
    (by simp only [List.length_append, Vector.length_toList]; rfl)
    (i64LeBytes_length _)

theorem encode_generation :
    ((encode sipHasher event).bytes.drop 92).take 8 =
      i64LeBytes event.generation := by
  have layout : (encode sipHasher event).bytes =
      (magic ++ (event.eventId.toList ++ (event.username.toList ++
        i64LeBytes event.timestamp))) ++
        (i64LeBytes event.generation ++
          ([event.kind, event.flags, 0, 0] ++
            leBytes 8 (checksum sipHasher (header event)).toNat)) := by
    simp only [encode, header, List.append_assoc]
  rw [layout]
  exact take_drop_middle _ _ _
    (by simp only [List.length_append, Vector.length_toList,
      i64LeBytes_length]; rfl)
    (i64LeBytes_length _)

theorem encode_kind_flags :
    (encode sipHasher event).bytes.drop 100 =
      event.kind :: event.flags :: 0 :: 0 ::
        leBytes 8 (checksum sipHasher (header event)).toNat := by
  have layout : (encode sipHasher event).bytes =
      (magic ++ (event.eventId.toList ++ (event.username.toList ++
        (i64LeBytes event.timestamp ++ i64LeBytes event.generation)))) ++
        (event.kind :: event.flags :: 0 :: 0 ::
          leBytes 8 (checksum sipHasher (header event)).toNat) := by
    simp only [encode, header, List.append_assoc]
    rfl
  rw [layout]
  exact List.drop_left'
    (by simp only [List.length_append, Vector.length_toList,
      i64LeBytes_length]; rfl)

theorem getD_of_drop {bytes : List UInt8} {start : Nat} {byte : UInt8}
    (offset : Nat) (dropped : (bytes.drop start)[offset]? = some byte) :
    bytes.getD (start + offset) 0 = byte := by
  rw [List.getElem?_drop] at dropped
  rw [List.getD_eq_getElem?_getD, dropped]
  rfl

theorem encode_kind : (encode sipHasher event).bytes.getD 100 0 = event.kind :=
  getD_of_drop 0 (by rw [encode_kind_flags]; rfl)

theorem encode_flags :
    (encode sipHasher event).bytes.getD 101 0 = event.flags :=
  getD_of_drop 1 (by rw [encode_kind_flags]; rfl)

end

theorem decode_eq_ok {sipHasher : SipHasher13} {record : Record}
    {event : SharedAuthEvent} (decoded : decode sipHasher record = .ok event) :
    record.bytes.take 4 = magic ∧
      event.eventId.toList = (record.bytes.drop 4).take 16 ∧
      usernameFromBytes event.username.toList ≠ none ∧
      EventKind.fromRaw event.kind ≠ none ∧
      EventFlags.fromRaw event.flags ≠ none := by
  rw [decode] at decoded
  split at decoded
  · cases decoded
  · next header =>
      split at decoded
      · cases decoded
      · dsimp only at decoded
        split at decoded
        · cases decoded
        · split at decoded
          · cases decoded
          · split at decoded
            · cases decoded
            · next readable known understood =>
                cases decoded
                rw [isInvalidUsername_iff] at readable
                refine ⟨not_not.mp header, ?_, readable, known, understood⟩
                exact field_toList record.bytes 4 16 (record.sized ▸ by decide)

theorem decode_encode_storable (sipHasher : SipHasher13)
    {event : SharedAuthEvent} (storable : Storable event) :
    decode sipHasher (encode sipHasher event) = .ok (stored event) := by
  rw [decode, if_neg (not_not.mpr (encode_take_magic sipHasher event)),
    if_neg (by rw [encode_take_header, encode_checksum]; exact fun h => h rfl)]
  simp only [encode_eventId, encode_username, encode_timestamp,
    encode_generation, encode_kind, encode_flags,
    i64FromLeBytes_i64LeBytes storable.timestamp,
    i64FromLeBytes_i64LeBytes storable.generation]
  have valid : ¬isInvalidUsername event.username = true :=
    fun invalid => storable.username ((isInvalidUsername_iff _).mp invalid)
  rw [if_neg valid, if_neg storable.kind, if_neg storable.flags]
  rfl

theorem decode_encode (sipHasher : SipHasher13) {event : SharedAuthEvent}
    (admissible : Admissible event) :
    decode sipHasher (encode sipHasher event) = .ok event := by
  rw [decode_encode_storable sipHasher admissible.storable,
    admissible.stored_eq]

end PasswordProfile.AuthJournal
