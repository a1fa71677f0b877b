import PasswordProfile.Foundation.Text

/-! # Passwords that look like hashes

The check rejects what PostgreSQL would take as an already hashed password, and
much else that looks like a hash.
-/

namespace PasswordProfile.PasswordChange

open Text

/-- `char::is_ascii_hexdigit`. -/
def isAsciiHexdigit (char : Char) : Bool :=
  ('0' ≤ char && char ≤ '9') || ('a' ≤ char && char ≤ 'f') ||
    ('A' ≤ char && char ≤ 'F')

def startsWith (text : List Char) (start : String) : Bool :=
  start.toList.isPrefixOf text

def isMd5Like (password lower : List Char) (len : Nat) : Option Bool :=
  if len = 35 && startsWith lower "md5" then
    (sliceFrom password 3).map fun hexPart => hexPart.all isAsciiHexdigit
  else some false

def hasHashFormat (password lower : List Char) (len : Nat) : Bool :=
  ((startsWith lower "$2a$" || startsWith lower "$2b$" ||
      startsWith lower "$2x$" || startsWith lower "$2y$") && len ≥ 20) ||
  (startsWith lower "$argon2i$" || startsWith lower "$argon2id$" ||
    startsWith lower "$argon2d$") ||
  startsWith lower "scram-sha-256$" ||
  startsWith lower "$pbkdf2-" ||
  (startsWith lower "pbkdf2:" || startsWith lower "sha1$" ||
    startsWith lower "sha256$") ||
  ((len = 40 || len = 64 || len = 128) && password.all isAsciiHexdigit) ||
  (startsWith password "$" && len > 50 && password.count '$' ≥ 3) ||
  ((startsWith lower "$1$" || startsWith lower "$5$" ||
    startsWith lower "$6$") && len > 20)

/-- The result is absent when the check panics. -/
def isHashLike (tables : CaseTables) (password : String) : Option Bool :=
  let chars := password.toList
  if chars.isEmpty then some false
  else do
    let len := (utf8Bytes password).length
    let lower := tables.toLowercase chars
    let md5 ← isMd5Like chars lower len
    return md5 || hasHashFormat chars lower len

/-! ## The check always answers -/

theorem md5_ascii {tables : CaseTables} {password : List Char}
    (start : startsWith (tables.toLowercase password) "md5" = true) :
    ∃ first second third rest, password = [first, second, third] ++ rest ∧
      ∀ char ∈ [first, second, third], char.toNat < 128 := by
  rcases List.isPrefixOf_iff_prefix.mp start with ⟨rest, lowered⟩
  rcases CaseTables.lowercaseAfter_eq_cons lowered.symm (by decide)
    (by decide) (by decide) with ⟨first, afterFirst, rfl, ascii1, lowered⟩
  rcases CaseTables.lowercaseAfter_eq_cons lowered.symm (by decide)
    (by decide) (by decide) with ⟨second, afterSecond, rfl, ascii2, lowered⟩
  rcases CaseTables.lowercaseAfter_eq_cons lowered.symm (by decide)
    (by decide) (by decide) with ⟨third, later, rfl, ascii3, _⟩
  exact ⟨first, second, third, later, rfl, by simp [ascii1, ascii2, ascii3]⟩

theorem isMd5Like_total (tables : CaseTables) (password : List Char)
    (len : Nat) :
    ∃ verdict, isMd5Like password (tables.toLowercase password) len =
      some verdict := by
  rw [isMd5Like]
  split
  · next conditions =>
      rw [Bool.and_eq_true] at conditions
      rcases md5_ascii conditions.2 with
        ⟨first, second, third, rest, rfl, ascii⟩
      exact ⟨_, congrArg _ (sliceFrom_ascii rest ascii)⟩
  · exact ⟨false, rfl⟩

theorem isHashLike_of_isMd5Like {tables : CaseTables} {password : String}
    {md5 : Bool} (nonempty : password.toList ≠ [])
    (found : isMd5Like password.toList (tables.toLowercase password.toList)
      (utf8Bytes password).length = some md5) :
    isHashLike tables password = some (md5 || hasHashFormat password.toList
      (tables.toLowercase password.toList) (utf8Bytes password).length) := by
  rw [isHashLike, if_neg (by simpa using nonempty)]
  simp only [found]
  rfl

theorem isHashLike_total (tables : CaseTables) (password : String) :
    ∃ verdict, isHashLike tables password = some verdict := by
  by_cases empty : password.toList = []
  · rw [isHashLike, empty]
    exact ⟨false, rfl⟩
  · rcases isMd5Like_total tables password.toList
      (utf8Bytes password).length with ⟨md5, found⟩
    exact ⟨_, isHashLike_of_isMd5Like empty found⟩

/-! ## What cannot be a hash -/

def hashStarts : List String :=
  ["md5", "$2a$", "$2b$", "$2x$", "$2y$", "$argon2i$", "$argon2id$",
    "$argon2d$", "scram-sha-256$", "$pbkdf2-", "pbkdf2:", "sha1$", "sha256$",
    "$1$", "$5$", "$6$", "$"]

theorem startsWith_eq_false {first : Char} {start : String}
    (unlike : first ∉ ['m', '$', 's', 'p']) (known : start ∈ hashStarts)
    (rest : List Char) : startsWith (first :: rest) start = false := by
  have heads : ∀ start ∈ hashStarts,
      start.toList.head?.any ['m', '$', 's', 'p'].contains = true := by
    decide
  rcases (Option.any_eq_true _ _).mp (heads start known) with
    ⟨head, isHead, listed⟩
  rcases List.head?_eq_some_iff.mp isHead with ⟨more, chars⟩
  have other : head ≠ first := by
    intro same
    subst same
    exact unlike (List.contains_iff_mem.mp listed)
  rw [startsWith, chars, List.isPrefixOf, beq_eq_false_iff_ne.mpr other,
    Bool.false_and]

theorem isHashLike_eq_false (tables : CaseTables) {password : String}
    {first : Char} {rest : List Char} (chars : password.toList = first :: rest)
    (ascii : first.toNat < 128) (small : first.toLower = first)
    (unlike : first ∉ ['m', '$', 's', 'p'])
    (notHex : password.toList.all isAsciiHexdigit = false) :
    isHashLike tables password = some false := by
  have lowered : tables.toLowercase password.toList =
      first :: tables.lowercaseAfter [first] rest := by
    have alone := @CaseTables.lowercaseAfter_ascii tables [first] [] rest
      (by simpa using ascii)
    rw [List.map_singleton, small] at alone
    rw [chars]
    exact alone
  have starts := fun start known => @startsWith_eq_false first start unlike known
  have md5 : isMd5Like password.toList (tables.toLowercase password.toList)
      (utf8Bytes password).length = some false := by
    rw [isMd5Like, lowered, starts "md5" (by decide), Bool.and_false,
      if_neg Bool.false_ne_true]
  rw [isHashLike_of_isMd5Like (by rw [chars]; nofun) md5, Bool.false_or,
    hasHashFormat, notHex, lowered, chars]
  simp (disch := decide) only [starts, Bool.false_and, Bool.and_false,
    Bool.or_false]

/-! ## What PostgreSQL takes as hashed is rejected -/

theorem startsWith_toLowercase (tables : CaseTables) {start text : List Char}
    (ascii : ∀ char ∈ start, char.toNat < 128) (starts : start <+: text) :
    start.map Char.toLower <+: tables.toLowercase text := by
  rcases starts with ⟨rest, rfl⟩
  exact ⟨_, (tables.lowercaseAfter_ascii [] rest ascii).symm⟩

theorem isHashLike_scram (tables : CaseTables) {password : String}
    (starts : utf8Bytes "SCRAM-SHA-256$" <+: utf8Bytes password) :
    isHashLike tables password = some true := by
  have starts := prefix_of_utf8Bytes_prefix starts
  have lowered := startsWith_toLowercase tables (by simp) starts
  have nonempty : password.toList ≠ [] := by
    intro empty
    rw [empty] at starts
    exact absurd (List.prefix_nil.mp starts) (by decide)
  have scram : startsWith (tables.toLowercase password.toList)
      "scram-sha-256$" = true := List.isPrefixOf_iff_prefix.mpr lowered
  rcases isMd5Like_total tables password.toList
    (utf8Bytes password).length with ⟨md5, found⟩
  rw [isHashLike_of_isMd5Like nonempty found]
  simp [hasHashFormat, scram]

def isHexByte (byte : UInt8) : Bool := isAsciiHexdigit (Char.ofUInt8 byte)

theorem isHexByte_ascii {byte : UInt8} (hex : isHexByte byte = true) :
    byte.toNat < 128 := by
  simp only [isHexByte, isAsciiHexdigit, Bool.or_eq_true, Bool.and_eq_true,
    decide_eq_true_eq, Char.le_def, UInt32.le_iff_toNat_le] at hex
  have code : (Char.ofUInt8 byte).val.toNat = byte.toNat := toNat_ofUInt8 byte
  rw [code] at hex
  have : 'f'.val.toNat = 102 := rfl
  have : 'F'.val.toNat = 70 := rfl
  have : '9'.val.toNat = 57 := rfl
  omega

theorem isHashLike_md5 (tables : CaseTables) {password : String}
    {digits : List UInt8} (bytes : utf8Bytes password = utf8Bytes "md5" ++ digits)
    (length : digits.length = 32) (hex : ∀ digit ∈ digits, isHexByte digit) :
    isHashLike tables password = some true := by
  have ascii : ∀ byte ∈ utf8Bytes "md5" ++ digits, byte.toNat < 128 :=
    List.forall_mem_append.mpr
      ⟨by decide +kernel, fun digit member => isHexByte_ascii (hex digit member)⟩
  have text : password =
      String.ofList ((utf8Bytes "md5" ++ digits).map Char.ofUInt8) := by
    apply utf8Bytes_injective
    rw [utf8Bytes_ascii ascii, bytes]
  have chars : password.toList = "md5".toList ++ digits.map Char.ofUInt8 := by
    rw [text, String.toList_ofList, List.map_append]
    exact congrArg (· ++ _) (by decide)
  have lowered := startsWith_toLowercase tables (by simp)
    (List.prefix_append "md5".toList (digits.map Char.ofUInt8))
  rw [← chars] at lowered
  have found : isMd5Like password.toList
      (tables.toLowercase password.toList) (utf8Bytes password).length =
        some true := by
    have conditions : (utf8Bytes password).length = 35 ∧
        startsWith (tables.toLowercase password.toList) "md5" = true :=
      ⟨by rw [bytes, List.length_append, length]; decide,
        List.isPrefixOf_iff_prefix.mpr lowered⟩
    have slice : sliceFrom password.toList 3 =
        some (digits.map Char.ofUInt8) := by
      rw [chars]
      exact sliceFrom_ascii _ (by simp)
    rw [isMd5Like, if_pos (by simpa using conditions), slice]
    simpa [isHexByte] using hex
  rw [isHashLike_of_isMd5Like (by rw [chars]; simp) found, Bool.true_or]

end PasswordProfile.PasswordChange
