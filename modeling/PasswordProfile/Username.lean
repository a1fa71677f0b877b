import Mathlib.Data.FinEnum
import Mathlib.Data.List.GetD
import Mathlib.Data.List.Nodup
import Mathlib.Order.Nat
import PasswordProfile.Foundation.Text

/-! # Usernames as fixed-size keys

Shared memory and the journal identify a role by a padded 64-byte array. The
database keeps the text itself.
-/

namespace PasswordProfile

/-- PostgreSQL's `TimestampTz`: microseconds, a signed 64-bit integer. -/
abbrev TimestampTz := Int

abbrev lockUsernameBytes : Nat := 64

abbrev EncodedUsername := Vector UInt8 lockUsernameBytes

namespace EncodedUsername

def zero : EncodedUsername := Vector.replicate lockUsernameBytes 0

def isFree (username : EncodedUsername) : Bool := username[0] == 0

end EncodedUsername

/-- Copy at most 63 bytes into a zeroed array, so the last byte stays zero. -/
def encodeUsername (username : String) : EncodedUsername :=
  let bytes := utf8Bytes username
  let len := min bytes.length (lockUsernameBytes - 1)
  Vector.ofFn fun index =>
    if index.val < len then bytes.getD index.val 0 else 0

/-- The text before the first zero byte, when it is non-empty valid UTF-8. -/
def usernameFromBytes (bytes : List UInt8) : Option String :=
  let stop := bytes.findIdx (· == 0)
  if stop = 0 then none
  else String.fromUTF8? (bytes.take stop).toByteArray

/-- What PostgreSQL admits as a role name: non-empty, without a zero byte and
within `NAMEDATALEN`. -/
structure IsRoleName (name : String) : Prop where
  nonempty : utf8Bytes name ≠ []
  nulFree : ∀ byte ∈ utf8Bytes name, byte ≠ 0
  short : (utf8Bytes name).length < lockUsernameBytes

instance (name : String) : Decidable (IsRoleName name) :=
  decidable_of_iff
    (utf8Bytes name ≠ [] ∧ (∀ byte ∈ utf8Bytes name, byte ≠ 0) ∧
      (utf8Bytes name).length < lockUsernameBytes)
    ⟨fun ⟨nonempty, nulFree, short⟩ => ⟨nonempty, nulFree, short⟩,
      fun ⟨nonempty, nulFree, short⟩ => ⟨nonempty, nulFree, short⟩⟩

theorem IsRoleName.ne_empty {name : String} (role : IsRoleName name) :
    name ≠ "" := by
  intro equal
  subst equal
  exact role.nonempty rfl

/-- Text that the encoding keeps whole; the empty text is not a role name. -/
structure IsUsername (name : String) : Prop where
  nulFree : ∀ byte ∈ utf8Bytes name, byte ≠ 0
  short : (utf8Bytes name).length < lockUsernameBytes

instance (name : String) : Decidable (IsUsername name) :=
  decidable_of_iff
    ((∀ byte ∈ utf8Bytes name, byte ≠ 0) ∧
      (utf8Bytes name).length < lockUsernameBytes)
    ⟨fun ⟨nulFree, short⟩ => ⟨nulFree, short⟩,
      fun ⟨nulFree, short⟩ => ⟨nulFree, short⟩⟩

theorem IsUsername.isRoleName {name : String} (username : IsUsername name)
    (nonempty : name ≠ "") : IsRoleName name where
  nonempty := fun none => nonempty (utf8Bytes_injective none)
  nulFree := username.nulFree
  short := username.short

theorem encodeUsername_getElem {name : String} (role : IsRoleName name)
    (index : Nat) (bound : index < lockUsernameBytes) :
    (encodeUsername name)[index] = (utf8Bytes name).getD index 0 := by
  have whole : min (utf8Bytes name).length (lockUsernameBytes - 1) =
      (utf8Bytes name).length := by
    have := role.short
    omega
  simp only [encodeUsername, Vector.getElem_ofFn, whole]
  by_cases inside : index < (utf8Bytes name).length
  · rw [if_pos inside]
  · rw [if_neg inside, List.getD_eq_default _ _ (Nat.le_of_not_lt inside)]

theorem encodeUsername_not_free {name : String} (role : IsRoleName name) :
    (encodeUsername name).isFree = false := by
  have first := encodeUsername_getElem role 0 (by decide)
  cases bytes : utf8Bytes name with
  | nil => exact absurd bytes role.nonempty
  | cons head tail =>
      have nonzero : head ≠ 0 := role.nulFree head (by simp [bytes])
      rw [bytes] at first
      simpa [EncodedUsername.isFree, first] using nonzero

theorem encodeUsername_toList {name : String} (role : IsRoleName name) :
    (encodeUsername name).toList = utf8Bytes name ++
      List.replicate (lockUsernameBytes - (utf8Bytes name).length) 0 := by
  have short := role.short
  apply List.ext_getElem
  · simp only [Vector.length_toList, List.length_append,
      List.length_replicate]
    omega
  intro index inLeft inRight
  rw [Vector.length_toList] at inLeft
  rw [Vector.getElem_toList, encodeUsername_getElem role index inLeft]
  by_cases inside : index < (utf8Bytes name).length
  · rw [List.getD_eq_getElem _ _ inside, List.getElem_append_left inside]
  · rw [List.getD_eq_default _ _ (Nat.le_of_not_lt inside),
      List.getElem_append_right (Nat.le_of_not_lt inside),
      List.getElem_replicate]

theorem findIdx_zero_padded {bytes : List UInt8}
    (nulFree : ∀ byte ∈ bytes, byte ≠ 0) {count : Nat} (padded : count ≠ 0) :
    (bytes ++ List.replicate count 0).findIdx (· == 0) = bytes.length := by
  induction bytes with
  | nil =>
      cases count with
      | zero => exact absurd rfl padded
      | succ count => simp [List.replicate_succ, List.findIdx_cons]
  | cons head tail induction =>
      have nonzero : (head == 0) = false := by
        simpa using nulFree head List.mem_cons_self
      have later := induction fun byte member =>
        nulFree byte (List.mem_cons_of_mem _ member)
      simp [List.findIdx_cons, nonzero, later]

theorem usernameFromBytes_encodeUsername {name : String}
    (role : IsRoleName name) :
    usernameFromBytes (encodeUsername name).toList = some name := by
  have short := role.short
  have stop := findIdx_zero_padded role.nulFree
    (Nat.sub_ne_zero_of_lt role.short)
  have nonempty : (utf8Bytes name).length ≠ 0 := by
    simpa using role.nonempty
  simp only [usernameFromBytes, encodeUsername_toList role, stop,
    if_neg nonempty, List.take_left]
  exact Text.fromUTF8?_eq_some_iff.mpr rfl

theorem getD_eq_zero_iff {bytes : List UInt8}
    (nulFree : ∀ byte ∈ bytes, byte ≠ 0) (index : Nat) :
    bytes.getD index 0 = 0 ↔ bytes.length ≤ index := by
  constructor
  · intro isZero
    by_contra inside
    have bound : index < bytes.length := Nat.lt_of_not_le inside
    rw [List.getD_eq_getElem _ _ bound] at isZero
    exact nulFree _ (List.getElem_mem bound) isZero
  · exact List.getD_eq_default _ _

theorem eq_of_getD_eq {size : Nat} {left right : List UInt8}
    (leftNulFree : ∀ byte ∈ left, byte ≠ 0) (leftShort : left.length < size)
    (rightNulFree : ∀ byte ∈ right, byte ≠ 0)
    (rightShort : right.length < size)
    (same : ∀ index < size, left.getD index 0 = right.getD index 0) :
    left = right := by
  have leftPadding := (getD_eq_zero_iff leftNulFree _).mpr le_rfl
  rw [same _ leftShort] at leftPadding
  have rightPadding := (getD_eq_zero_iff rightNulFree _).mpr le_rfl
  rw [← same _ rightShort] at rightPadding
  have sameLength : left.length = right.length :=
    le_antisymm ((getD_eq_zero_iff leftNulFree _).mp rightPadding)
      ((getD_eq_zero_iff rightNulFree _).mp leftPadding)
  apply List.ext_getElem sameLength
  intro index inLeft inRight
  have equal := same index (inLeft.trans leftShort)
  rwa [List.getD_eq_getElem _ _ inLeft,
    List.getD_eq_getElem _ _ inRight] at equal

theorem encodeUsername_getElem_take (name : String) (index : Nat)
    (bound : index < lockUsernameBytes) :
    (encodeUsername name)[index] =
      ((utf8Bytes name).take (lockUsernameBytes - 1)).getD index 0 := by
  simp only [encodeUsername, Vector.getElem_ofFn]
  by_cases inside : index < min (utf8Bytes name).length (lockUsernameBytes - 1)
  · rw [if_pos inside]
    have inBytes : index < (utf8Bytes name).length := by omega
    have inKept : index <
        ((utf8Bytes name).take (lockUsernameBytes - 1)).length := by
      rw [List.length_take]
      omega
    rw [List.getD_eq_getElem _ _ inBytes, List.getD_eq_getElem _ _ inKept,
      List.getElem_take]
  · rw [if_neg inside, List.getD_eq_default]
    rw [List.length_take]
    omega

/-- A text is encoded as a role exactly when the kept bytes are its name. -/
theorem encodeUsername_eq_iff {role name : String} (isRole : IsRoleName role)
    (nulFree : ∀ byte ∈ utf8Bytes name, byte ≠ 0) :
    encodeUsername role = encodeUsername name ↔
      utf8Bytes role = (utf8Bytes name).take (lockUsernameBytes - 1) := by
  have whole : (utf8Bytes role).take (lockUsernameBytes - 1) =
      utf8Bytes role :=
    List.take_of_length_le (Nat.le_sub_one_of_lt isRole.short)
  constructor
  · intro equal
    apply eq_of_getD_eq isRole.nulFree isRole.short
    · exact fun byte member => nulFree byte (List.mem_of_mem_take member)
    · rw [List.length_take]
      exact lt_of_le_of_lt (Nat.min_le_left ..) (by decide)
    · intro index bound
      rw [← encodeUsername_getElem isRole index bound,
        ← encodeUsername_getElem_take name index bound, equal]
  · intro bytes
    apply Vector.ext
    intro index bound
    rw [encodeUsername_getElem isRole index bound,
      encodeUsername_getElem_take name index bound, bytes]

theorem encodeUsername_injective {left right : String}
    (leftRole : IsRoleName left) (rightRole : IsRoleName right)
    (equal : encodeUsername left = encodeUsername right) : left = right := by
  have bytes := (encodeUsername_eq_iff leftRole rightRole.nulFree).mp equal
  rw [List.take_of_length_le (Nat.le_sub_one_of_lt rightRole.short)] at bytes
  exact utf8Bytes_injective bytes

/-- The text that the encoding keeps of a longer one, when it does not end
inside a character. -/
def cutUsername (name : String) : Option String :=
  if lockUsernameBytes ≤ (utf8Bytes name).length then
    String.fromUTF8?
      ((utf8Bytes name).take (lockUsernameBytes - 1)).toByteArray
  else none

theorem encodeUsername_eq_iff_cut {role name : String}
    (isRole : IsRoleName role) (nulFree : ∀ byte ∈ utf8Bytes name, byte ≠ 0) :
    encodeUsername role = encodeUsername name ↔
      role = name ∨ cutUsername name = some role := by
  rw [encodeUsername_eq_iff isRole nulFree, cutUsername]
  split
  · next long =>
      rw [Text.fromUTF8?_eq_some_iff]
      constructor
      · exact .inr
      · intro given
        rcases given with rfl | bytes
        · exact absurd isRole.short (Nat.not_lt.mpr long)
        · exact bytes
  · next short =>
      rw [List.take_of_length_le (by omega)]
      exact ⟨fun bytes => .inl (utf8Bytes_injective bytes),
        fun given => by
          rcases given with rfl | impossible
          · rfl
          · cases impossible⟩

theorem isRoleName_of_cutUsername {name cut : String}
    (nulFree : ∀ byte ∈ utf8Bytes name, byte ≠ 0)
    (isCut : cutUsername name = some cut) : IsRoleName cut := by
  rw [cutUsername] at isCut
  split at isCut
  · next long =>
      have bytes := Text.fromUTF8?_eq_some_iff.mp isCut
      have length : (utf8Bytes cut).length = lockUsernameBytes - 1 := by
        rw [bytes, List.length_take]
        omega
      exact {
        nonempty := fun empty => by
          rw [empty] at length
          cases length
        nulFree := fun byte member => nulFree byte (by
          rw [bytes] at member
          exact List.mem_of_mem_take member)
        short := by
          rw [length]
          decide }
  · cases isCut

theorem nodup_map_encodeUsername {rows : List (String × α)}
    (distinct : (rows.map Prod.fst).Nodup)
    (roles : ∀ row ∈ rows, IsRoleName row.1) :
    (rows.map fun row => encodeUsername row.1).Nodup := by
  apply (distinct.of_map (f := Prod.fst)).map_on
  intro left leftMember right rightMember same
  have name := encodeUsername_injective (roles left leftMember)
    (roles right rightMember) same
  exact List.inj_on_of_nodup_map distinct leftMember rightMember name

end PasswordProfile
