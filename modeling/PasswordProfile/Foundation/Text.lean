import Mathlib.Data.List.Infix

/-! # Text and its bytes

UTF-8, slices at byte offsets, and the lowercase form of a text. The Unicode
character tables are a parameter, with what is known about ASCII.
-/

namespace PasswordProfile

/-- The bytes of a Rust `&str`. -/
def utf8Bytes (text : String) : List UInt8 := text.toByteArray.data.toList

theorem utf8Bytes_injective : Function.Injective utf8Bytes := by
  intro left right equal
  apply String.toByteArray_inj.mp
  apply ByteArray.ext
  exact Array.toList_inj.mp equal

namespace Text

theorem utf8Bytes_eq_flatMap (text : String) :
    utf8Bytes text = text.toList.flatMap String.utf8EncodeChar := by
  conv_lhs => rw [← String.ofList_toList (s := text)]
  rw [utf8Bytes, String.toByteArray_ofList, List.utf8Encode,
    List.data_toByteArray]

theorem fromUTF8?_eq_some_iff {bytes : List UInt8} {text : String} :
    String.fromUTF8? bytes.toByteArray = some text ↔ utf8Bytes text = bytes := by
  constructor
  · intro decoded
    rw [String.fromUTF8?] at decoded
    split at decoded
    · cases decoded
      exact congrArg Array.toList (List.data_toByteArray ..)
    · cases decoded
  · intro equal
    subst equal
    have whole : (utf8Bytes text).toByteArray = text.toByteArray := by
      apply ByteArray.ext
      rw [List.data_toByteArray, utf8Bytes]
    rw [whole, String.fromUTF8?, dif_pos text.isValidUTF8]
    rfl

theorem utf8Size_ascii {char : Char} (ascii : char.toNat < 128) :
    char.utf8Size = 1 := by
  apply Char.utf8Size_eq_one_iff.mpr
  exact Nat.le_of_lt_succ ascii

theorem toNat_ofUInt8 (byte : UInt8) :
    (Char.ofUInt8 byte).toNat = byte.toNat :=
  UInt8.toNat_toUInt32 byte

theorem utf8EncodeChar_ascii {byte : UInt8} (ascii : byte.toNat < 128) :
    String.utf8EncodeChar (Char.ofUInt8 byte) = [byte] := by
  rw [String.utf8EncodeChar_eq_singleton
    (utf8Size_ascii ((toNat_ofUInt8 byte).trans_lt ascii))]
  exact congrArg (fun value => [value]) (UInt8.toUInt8_toUInt32 byte)

theorem prefix_of_utf8Bytes_prefix {start text : String}
    (bytes : utf8Bytes start <+: utf8Bytes text) :
    start.toList <+: text.toList := by
  rcases bytes with ⟨rest, append⟩
  apply List.isPrefix_of_utf8Encode_append_eq_utf8Encode rest.toByteArray
  apply ByteArray.ext
  apply Array.toList_inj.mp
  simpa [List.utf8Encode, utf8Bytes_eq_flatMap] using append

theorem utf8Bytes_ascii {bytes : List UInt8}
    (ascii : ∀ byte ∈ bytes, byte.toNat < 128) :
    utf8Bytes (String.ofList (bytes.map Char.ofUInt8)) = bytes := by
  rw [utf8Bytes_eq_flatMap, String.toList_ofList]
  induction bytes with
  | nil => rfl
  | cons byte rest induction =>
      rw [List.map_cons, List.flatMap_cons,
        utf8EncodeChar_ascii (ascii byte List.mem_cons_self),
        induction fun other member =>
          ascii other (List.mem_cons_of_mem _ member)]
      rfl

/-- `&text[offset..]`, unless the offset is not at a character boundary. -/
def sliceFrom : List Char → Nat → Option (List Char)
  | text, 0 => some text
  | [], _ + 1 => none
  | char :: rest, offset + 1 =>
      if char.utf8Size ≤ offset + 1 then
        sliceFrom rest (offset + 1 - char.utf8Size)
      else none

theorem sliceFrom_ascii {text : List Char} (rest : List Char)
    (ascii : ∀ char ∈ text, char.toNat < 128) :
    sliceFrom (text ++ rest) text.length = some rest := by
  induction text with
  | nil => cases rest <;> rfl
  | cons char text induction =>
      have oneByte := utf8Size_ascii (ascii char List.mem_cons_self)
      rw [List.length_cons, List.cons_append, sliceFrom, oneByte,
        if_pos (Nat.le_add_left 1 _), Nat.add_sub_cancel]
      exact induction fun other member =>
        ascii other (List.mem_cons_of_mem _ member)

/-- The Unicode tables behind `str::to_lowercase`. Of the characters outside
ASCII only the Kelvin sign and the dotted capital I have an ASCII character in
their lowercase form. -/
structure CaseTables where
  lowercase : Char → List Char
  cased : Char → Bool
  caseIgnorable : Char → Bool
  lowercase_ascii : ∀ char, char.toNat < 128 → lowercase char = [char.toLower]
  lowercase_other : ∀ char, 128 ≤ char.toNat → lowercase char ≠ [] ∧
    ∀ lower ∈ lowercase char, lower.toNat < 128 → lower = 'k' ∨ lower = 'i'

namespace CaseTables

/-- A table with a single character of its own for each one outside ASCII. -/
theorem lowercase_other_of_single {lowered : Char}
    (other : 128 ≤ lowered.toNat) :
    [lowered] ≠ [] ∧ ∀ lower ∈ [lowered], lower.toNat < 128 →
      lower = 'k' ∨ lower = 'i' := by
  refine ⟨nofun, fun lower member ascii => ?_⟩
  rw [List.mem_singleton.mp member] at ascii
  exact absurd ascii (Nat.not_lt.mpr other)

def ignorableThenCased (tables : CaseTables) (chars : List Char) : Bool :=
  match chars.dropWhile tables.caseIgnorable with
  | [] => false
  | char :: _ => tables.cased char

def lowercaseSigma (tables : CaseTables) (before after : List Char) : Char :=
  if tables.ignorableThenCased before && !tables.ignorableThenCased after then
    'ς'
  else 'σ'

def lowercaseAfter (tables : CaseTables) : List Char → List Char → List Char
  | _, [] => []
  | before, char :: after =>
      (if char = 'Σ' then [tables.lowercaseSigma before after]
        else tables.lowercase char) ++
      lowercaseAfter tables (char :: before) after

/-- `str::to_lowercase`. -/
def toLowercase (tables : CaseTables) (text : List Char) : List Char :=
  tables.lowercaseAfter [] text

theorem ne_sigma_of_ascii {char : Char} (ascii : char.toNat < 128) :
    char ≠ 'Σ' := by
  intro equal
  subst equal
  exact absurd ascii (by decide)

theorem lowercaseAfter_ascii (tables : CaseTables) {text : List Char}
    (before rest : List Char) (ascii : ∀ char ∈ text, char.toNat < 128) :
    tables.lowercaseAfter before (text ++ rest) = text.map Char.toLower ++
      tables.lowercaseAfter (text.reverse ++ before) rest := by
  induction text generalizing before with
  | nil => rfl
  | cons char text induction =>
      have head := ascii char List.mem_cons_self
      rw [List.cons_append, lowercaseAfter, if_neg (ne_sigma_of_ascii head),
        tables.lowercase_ascii char head,
        induction (char :: before) fun other member =>
          ascii other (List.mem_cons_of_mem _ member)]
      simp

theorem lowercaseAfter_eq_cons {tables : CaseTables} {before text : List Char}
    {lower : Char} {rest : List Char}
    (lowered : tables.lowercaseAfter before text = lower :: rest)
    (ascii : lower.toNat < 128) (notK : lower ≠ 'k') (notI : lower ≠ 'i') :
    ∃ char later, text = char :: later ∧ char.toNat < 128 ∧
      rest = tables.lowercaseAfter (char :: before) later := by
  cases text with
  | nil => cases lowered
  | cons char later =>
      rw [lowercaseAfter] at lowered
      split at lowered
      · next sigma =>
          have capital : lower = tables.lowercaseSigma before later :=
            (List.cons.inj lowered).1.symm
          rw [capital, lowercaseSigma] at ascii
          split at ascii
          · exact absurd ascii (by decide)
          · exact absurd ascii (by decide)
      by_cases small : char.toNat < 128
      · rw [tables.lowercase_ascii char small] at lowered
        exact ⟨char, later, rfl, small, (List.cons.inj lowered).2.symm⟩
      · rcases tables.lowercase_other char (Nat.le_of_not_lt small) with
          ⟨nonempty, others⟩
        cases form : tables.lowercase char with
        | nil => exact absurd form nonempty
        | cons first more =>
            rw [form] at lowered
            have same : first = lower := (List.cons.inj lowered).1
            subst same
            rcases others first (by simp [form]) ascii with isK | isI
            · exact absurd isK notK
            · exact absurd isI notI

end CaseTables

end Text

end PasswordProfile
