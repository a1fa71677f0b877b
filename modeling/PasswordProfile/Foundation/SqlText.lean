import Mathlib.Data.List.Infix
import Mathlib.Data.List.TakeWhile

/-! # PostgreSQL's functions on text

The functions that SQL statements apply to `name=value` settings, the lower case
of a database, and the spellings of a boolean setting.
-/

namespace PasswordProfile.SqlText

/-- `split_part(text, separator, 1)`. -/
def splitPartFirst (text : String) (separator : Char) : String :=
  String.ofList (text.toList.takeWhile (· ≠ separator))

/-- `split_part(text, separator, 2)`; empty without a separator. -/
def splitPartSecond (text : String) (separator : Char) : String :=
  String.ofList (((text.toList.dropWhile (· ≠ separator)).drop 1).takeWhile
    (· ≠ separator))

/-- `text LIKE pattern`, for a pattern without escapes. -/
def like : List Char → List Char → Bool
  | [], text => text.isEmpty
  | char :: pattern, text =>
      if char = '%' then text.tails.any (like pattern)
      else
        match text with
        | [] => false
        | head :: rest => (char == '_' || char == head) && like pattern rest

/-- `strpos(text, char)`: the position from one, or zero. -/
def strpos (text : String) (char : Char) : Nat :=
  match text.toList.findIdx? (· = char) with
  | some index => index + 1
  | none => 0

/-- `substr(text, start)` for a positive start. -/
def substr (text : String) (start : Nat) : String :=
  String.ofList (text.toList.drop (start - 1))

/-- `lower(text)` in some database: its collation decides about all but ASCII
text without the capital `I`. -/
structure Lower where
  lower : String → String
  ascii : ∀ text, (∀ char ∈ text.toList, char.toNat < 128 ∧ char ≠ 'I') →
    lower text = String.ofList (text.toList.map Char.toLower)

/-- The lower case of the `C` collation. -/
def Lower.posix : Lower where
  lower text := String.ofList (text.toList.map Char.toLower)
  ascii _ _ := rfl

/-! ## Boolean settings -/

/-- A prefix of `keyword` with at least `least` characters. -/
def spells (word : List Char) (least : Nat) (keyword : List Char) : Bool :=
  decide (least ≤ word.length) && word.isPrefixOf keyword

/-- `parse_bool`; a single `o` could be either. -/
def parseBool (text : String) : Option Bool :=
  let word := text.toList.map Char.toLower
  if spells word 1 ['t', 'r', 'u', 'e'] then some true
  else if spells word 1 ['f', 'a', 'l', 's', 'e'] then some false
  else if spells word 1 ['y', 'e', 's'] then some true
  else if spells word 1 ['n', 'o'] then some false
  else if spells word 2 ['o', 'n'] then some true
  else if spells word 2 ['o', 'f', 'f'] then some false
  else if word = ['1'] then some true
  else if word = ['0'] then some false
  else none

def trueSpellings : List (List Char) :=
  [['t', 'r', 'u', 'e'], ['t', 'r', 'u'], ['t', 'r'], ['t'],
    ['y', 'e', 's'], ['y', 'e'], ['y'], ['o', 'n'], ['1']]

def falseSpellings : List (List Char) :=
  [['f', 'a', 'l', 's', 'e'], ['f', 'a', 'l', 's'], ['f', 'a', 'l'],
    ['f', 'a'], ['f'], ['n', 'o'], ['n'], ['o', 'f', 'f'], ['o', 'f'], ['0']]

theorem mem_of_spells {word keyword : List Char} {least : Nat}
    {spellings : List (List Char)} (spelled : spells word least keyword = true)
    (listed : (keyword.inits.filter fun start =>
      decide (least ≤ start.length)) ⊆ spellings) : word ∈ spellings := by
  rw [spells, Bool.and_eq_true, List.isPrefixOf_iff_prefix] at spelled
  apply listed
  exact List.mem_filter.mpr ⟨(List.mem_inits _ _).mpr spelled.2, spelled.1⟩

theorem spelled_or {word keyword : List Char} {least : Nat}
    {found value : Bool} {rest : Option Bool}
    (parsed : (if spells word least keyword then some found else rest) =
      some value)
    (listed : (keyword.inits.filter fun start =>
      decide (least ≤ start.length)) ⊆
        if found then trueSpellings else falseSpellings) :
    word ∈ (if value then trueSpellings else falseSpellings) ∨
      rest = some value := by
  split at parsed
  · next spelled =>
      cases parsed
      exact .inl (mem_of_spells spelled listed)
  · exact .inr parsed

theorem parseBool_spelled {text : String} {value : Bool}
    (parsed : parseBool text = some value) :
    text.toList.map Char.toLower ∈
      (if value then trueSpellings else falseSpellings) := by
  simp only [parseBool] at parsed
  rcases spelled_or parsed (by decide) with listed | parsed
  · exact listed
  rcases spelled_or parsed (by decide) with listed | parsed
  · exact listed
  rcases spelled_or parsed (by decide) with listed | parsed
  · exact listed
  rcases spelled_or parsed (by decide) with listed | parsed
  · exact listed
  rcases spelled_or parsed (by decide) with listed | parsed
  · exact listed
  rcases spelled_or parsed (by decide) with listed | parsed
  · exact listed
  split at parsed
  · next digit =>
      cases parsed
      rw [digit]
      decide
  split at parsed
  · next digit =>
      cases parsed
      rw [digit]
      decide
  · cases parsed

theorem parseBool_eq_some_true_iff {text : String} :
    parseBool text = some true ↔
      text.toList.map Char.toLower ∈ trueSpellings := by
  constructor
  · exact parseBool_spelled
  · intro spelled
    have every : ∀ word ∈ trueSpellings,
        ∀ text : String, text.toList.map Char.toLower = word →
          parseBool text = some true := by
      intro word member text same
      rw [parseBool, same]
      clear same text
      revert word
      decide
    exact every _ spelled text rfl

theorem toLower_ascii {char lowered : Char} (same : char.toLower = lowered)
    (ascii : lowered.toNat < 128) (notI : lowered ≠ 'i') :
    char.toNat < 128 ∧ char ≠ 'I' := by
  subst same
  refine ⟨?_, fun capital => notI (by rw [capital]; rfl)⟩
  by_cases upper : char.val ≥ 'A'.val ∧ char.val ≤ 'Z'.val
  · exact Nat.lt_of_le_of_lt (UInt32.le_iff_toNat_le.mp upper.2) (by decide)
  · have kept : char.toLower = char := dif_neg upper
    rwa [kept] at ascii

theorem parseBool_separated {text : String} {value : Bool}
    (parsed : parseBool text = some value) : '=' ∉ text.toList := by
  intro member
  have lowered := List.mem_map_of_mem (f := Char.toLower) member
  have spelled := parseBool_spelled parsed
  have letters : (if value then trueSpellings else falseSpellings).all
      (·.all fun letter => letter ≠ '=') = true := by
    cases value <;> decide
  have plain := List.all_eq_true.mp (List.all_eq_true.mp letters _ spelled) _
    lowered
  exact absurd plain (by decide)

/-- An accepted text is ASCII without a capital `I`, so every database has the
same lower case of it. -/
theorem Lower.lower_accepted (lower : Lower) {text : String} {value : Bool}
    (parsed : parseBool text = some value) :
    lower.lower text = String.ofList (text.toList.map Char.toLower) := by
  apply lower.ascii
  intro char member
  have lowered := List.mem_map_of_mem (f := Char.toLower) member
  have spelled := parseBool_spelled parsed
  have letters : (if value then trueSpellings else falseSpellings).all
      (·.all fun letter => letter.toNat < 128 ∧ letter ≠ 'i') = true := by
    cases value <;> decide
  have plain := List.all_eq_true.mp (List.all_eq_true.mp letters _ spelled) _
    lowered
  rw [decide_eq_true_eq] at plain
  exact toLower_ascii rfl plain.1 plain.2

/-! ## Settings -/

section Settings

variable {name value : List Char} {separator : Char}

theorem takeWhile_setting (free : separator ∉ name) :
    (name ++ separator :: value).takeWhile (· ≠ separator) = name := by
  induction name with
  | nil => simp
  | cons head tail induction =>
      rw [List.mem_cons, not_or] at free
      rw [List.cons_append, List.takeWhile_cons_of_pos (by
        simpa using Ne.symm free.1), induction free.2]

theorem findIdx?_setting (free : separator ∉ name) :
    (name ++ separator :: value).findIdx? (· = separator) =
      some name.length := by
  induction name with
  | nil => simp [List.findIdx?_cons]
  | cons head tail induction =>
      rw [List.mem_cons, not_or] at free
      rw [List.cons_append, List.findIdx?_cons, induction free.2]
      simp [Ne.symm free.1]

theorem dropWhile_setting (free : separator ∉ name) :
    (name ++ separator :: value).dropWhile (· ≠ separator) =
      separator :: value := by
  induction name with
  | nil => simp
  | cons head tail induction =>
      rw [List.mem_cons, not_or] at free
      rw [List.cons_append, List.dropWhile_cons_of_pos (by
        simpa using Ne.symm free.1), induction free.2]

theorem like_append {pattern text : List Char}
    (rest : like pattern text = true) (start : List Char) :
    like (start ++ pattern) (start ++ text) = true := by
  induction start with
  | nil => exact rest
  | cons char start induction =>
      rw [List.cons_append, List.cons_append, like]
      split
      · apply List.any_eq_true.mpr
        refine ⟨start ++ text, ?_, induction⟩
        exact (List.mem_tails _ _).mpr (List.suffix_cons char _)
      · simpa using induction

theorem like_percent (text : List Char) : like ['%'] text = true := by
  unfold like
  rw [if_pos rfl]
  apply List.any_eq_true.mpr
  exact ⟨[], (List.mem_tails _ _).mpr (List.nil_suffix), rfl⟩

end Settings

theorem splitPartFirst_setting {name value : String}
    (free : '=' ∉ name.toList) :
    splitPartFirst (name ++ "=" ++ value) '=' = name := by
  rw [splitPartFirst]
  have text : (name ++ "=" ++ value).toList =
      name.toList ++ '=' :: value.toList := by simp
  rw [text, takeWhile_setting free, String.ofList_toList]

theorem splitPartSecond_setting {name value : String}
    (free : '=' ∉ name.toList) (whole : '=' ∉ value.toList) :
    splitPartSecond (name ++ "=" ++ value) '=' = value := by
  have text : (name ++ "=" ++ value).toList =
      name.toList ++ '=' :: value.toList := by simp
  have taken : value.toList.takeWhile (· ≠ '=') = value.toList := by
    apply List.takeWhile_eq_self_iff.mpr
    intro char member
    rw [decide_eq_true_iff]
    intro same
    exact whole (same ▸ member)
  rw [splitPartSecond, text, dropWhile_setting free, List.drop_one,
    List.tail_cons, taken, String.ofList_toList]

theorem like_setting (name value : String) :
    like (name ++ "=%").toList (name ++ "=" ++ value).toList = true := by
  have pattern : (name ++ "=%").toList = (name.toList ++ ['=']) ++ ['%'] := by
    simp
  have text : (name ++ "=" ++ value).toList =
      (name.toList ++ ['=']) ++ value.toList := by simp
  rw [pattern, text]
  exact like_append (like_percent value.toList) _

theorem substr_setting {name value : String} (free : '=' ∉ name.toList) :
    substr (name ++ "=" ++ value)
      (strpos (name ++ "=" ++ value) '=' + 1) = value := by
  have text : (name ++ "=" ++ value).toList =
      name.toList ++ '=' :: value.toList := by simp
  rw [substr, strpos, text, findIdx?_setting free]
  simp

theorem setting_injective {name value otherName otherValue : String}
    (free : '=' ∉ name.toList) (otherFree : '=' ∉ otherName.toList) :
    name ++ "=" ++ value = otherName ++ "=" ++ otherValue ↔
      name = otherName ∧ value = otherValue := by
  constructor
  · intro same
    constructor
    · rw [← @splitPartFirst_setting name value free, same,
        splitPartFirst_setting otherFree]
    · rw [← @substr_setting name value free, same, substr_setting otherFree]
  · intro both
    rw [both.1, both.2]

end PasswordProfile.SqlText
