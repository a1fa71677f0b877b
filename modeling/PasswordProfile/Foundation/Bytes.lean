import Mathlib.Data.Nat.Basic
import Mathlib.Data.Int.ModEq

/-! # Numbers as bytes

Fixed-width little-endian encodings, and fields cut out of a fixed-size record.
-/

namespace PasswordProfile.Bytes

/-- The low `count` bytes of a number, least significant first. -/
def leBytes : Nat → Nat → List UInt8
  | 0, _ => []
  | count + 1, value =>
      UInt8.ofNat (value % 256) :: leBytes count (value / 256)

def fromLeBytes : List UInt8 → Nat
  | [] => 0
  | byte :: rest => byte.toNat + 256 * fromLeBytes rest

@[simp] theorem leBytes_length (count value : Nat) :
    (leBytes count value).length = count := by
  induction count generalizing value with
  | zero => rfl
  | succ count induction => simp [leBytes, induction]

theorem fromLeBytes_leBytes (count value : Nat) :
    fromLeBytes (leBytes count value) = value % 256 ^ count := by
  induction count generalizing value with
  | zero => simp [leBytes, fromLeBytes, Nat.mod_one]
  | succ count induction =>
      have byte : (UInt8.ofNat (value % 256)).toNat = value % 256 :=
        UInt8.toNat_ofNat_of_lt' (Nat.mod_lt value (by decide))
      rw [leBytes, fromLeBytes, induction, byte, Nat.pow_succ', Nat.mod_mul]

/-! ## Signed 64-bit integers -/

def InI64 (value : Int) : Prop := -(2 ^ 63) ≤ value ∧ value < 2 ^ 63

instance (value : Int) : Decidable (InI64 value) :=
  inferInstanceAs (Decidable (_ ∧ _))

/-- `i64::to_le_bytes` -/
def i64LeBytes (value : Int) : List UInt8 :=
  leBytes 8 (value % 2 ^ 64).toNat

/-- `i64::from_le_bytes` -/
def i64FromLeBytes (bytes : List UInt8) : Int :=
  Int.bmod (fromLeBytes bytes) (2 ^ 64)

@[simp] theorem i64LeBytes_length (value : Int) :
    (i64LeBytes value).length = 8 := by
  rw [i64LeBytes, leBytes_length]

theorem bmod_emod_i64 {value : Int} (range : InI64 value) :
    Int.bmod (value % 2 ^ 64) (2 ^ 64) = value := by
  rcases range with ⟨low, high⟩
  have reduced := Int.emod_bmod value (2 ^ 64)
  rw [Nat.cast_pow, Nat.cast_ofNat] at reduced
  rw [reduced]
  exact Int.bmod_eq_of_le (by omega) (by omega)

theorem i64FromLeBytes_i64LeBytes {value : Int} (range : InI64 value) :
    i64FromLeBytes (i64LeBytes value) = value := by
  have nonnegative : 0 ≤ value % 2 ^ 64 := Int.emod_nonneg value (by decide)
  have small : (value % 2 ^ 64).toNat < 256 ^ 8 := by
    have := Int.emod_lt_of_pos value (by decide : (0 : Int) < 2 ^ 64)
    omega
  have decoded : fromLeBytes (i64LeBytes value) = (value % 2 ^ 64).toNat := by
    rw [i64LeBytes, fromLeBytes_leBytes, Nat.mod_eq_of_lt small]
  calc i64FromLeBytes (i64LeBytes value)
      = Int.bmod (fromLeBytes (i64LeBytes value) : Int) (2 ^ 64) := rfl
    _ = Int.bmod (value % 2 ^ 64) (2 ^ 64) := by
      rw [decoded, Int.toNat_of_nonneg nonnegative]
    _ = value := bmod_emod_i64 range

/-! ## Fields -/

/-- The `width` bytes from `start` on. -/
def field (bytes : List UInt8) (start width : Nat)
    (fits : start + width ≤ bytes.length) : Vector UInt8 width :=
  ⟨((bytes.drop start).take width).toArray, by
    simp only [List.size_toArray, List.length_take, List.length_drop]
    omega⟩

theorem field_toList (bytes : List UInt8) (start width : Nat)
    (fits : start + width ≤ bytes.length) :
    (field bytes start width fits).toList = (bytes.drop start).take width := by
  simp [field]

theorem take_drop_middle (before middle after : List α) {start width : Nat}
    (starts : before.length = start) (wide : middle.length = width) :
    ((before ++ (middle ++ after)).drop start).take width = middle := by
  rw [List.drop_left' starts, List.take_left' wide]

theorem field_eq {bytes before after : List UInt8} {start width : Nat}
    {value : Vector UInt8 width} (fits : start + width ≤ bytes.length)
    (layout : bytes = before ++ (value.toList ++ after))
    (starts : before.length = start) :
    field bytes start width fits = value := by
  apply Vector.toList_inj.mp
  rw [field_toList, layout]
  exact take_drop_middle before value.toList after starts
    (Vector.length_toList)

end PasswordProfile.Bytes
