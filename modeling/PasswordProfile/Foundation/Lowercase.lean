import PasswordProfile.Foundation.Text

/-! # The lowercase form of a part of a text

A capital sigma is lowered by what stands around it. A text within another may
therefore be lowered in another way than on its own, and this says when.
-/

namespace PasswordProfile.Text.CaseTables

variable {tables : CaseTables}

def lowercaseBetween (tables : CaseTables) :
    List Char → List Char → List Char → List Char
  | _, [], _ => []
  | before, char :: rest, after =>
      (if char = 'Σ' then [tables.lowercaseSigma before (rest ++ after)]
        else tables.lowercase char) ++
      lowercaseBetween tables (char :: before) rest after

theorem lowercaseAfter_append (before text after : List Char) :
    tables.lowercaseAfter before (text ++ after) =
      tables.lowercaseBetween before text after ++
        tables.lowercaseAfter (text.reverse ++ before) after := by
  induction text generalizing before with
  | nil => rfl
  | cons char rest induction =>
      rw [List.cons_append, lowercaseAfter, induction, lowercaseBetween,
        List.append_assoc, List.reverse_cons, List.append_assoc]
      rfl

theorem toLowercase_eq (text : List Char) :
    tables.toLowercase text = tables.lowercaseBetween [] text [] := by
  have whole := @lowercaseAfter_append tables [] text []
  rw [List.append_nil] at whole
  rw [toLowercase, whole]
  exact List.append_nil _

/-! ## What the surroundings decide -/

def isOpen (tables : CaseTables) (chars : List Char) : Bool :=
  chars.all tables.caseIgnorable

theorem ignorableThenCased_cons (char : Char) (rest : List Char) :
    tables.ignorableThenCased (char :: rest) =
      if tables.caseIgnorable char then tables.ignorableThenCased rest
      else tables.cased char := by
  rw [ignorableThenCased, List.dropWhile_cons]
  cases tables.caseIgnorable char with
  | true => rfl
  | false => rfl

theorem ignorableThenCased_append (chars more : List Char) :
    tables.ignorableThenCased (chars ++ more) =
      if tables.isOpen chars then tables.ignorableThenCased more
      else tables.ignorableThenCased chars := by
  induction chars with
  | nil => rfl
  | cons char rest induction =>
      rw [isOpen] at induction
      rw [List.cons_append, ignorableThenCased_cons, ignorableThenCased_cons,
        isOpen, List.all_cons]
      cases tables.caseIgnorable char with
      | true => exact induction
      | false => rfl

theorem ignorableThenCased_of_isOpen {chars : List Char}
    (isOpen : tables.isOpen chars = true) :
    tables.ignorableThenCased chars = false := by
  have alone := @ignorableThenCased_append tables chars []
  rw [List.append_nil, if_pos isOpen] at alone
  exact alone

def anySigma (condition : List Char → List Char → Bool) :
    List Char → List Char → Bool
  | _, [] => false
  | before, char :: rest =>
      (char == 'Σ' && condition before rest) ||
      anySigma condition (char :: before) rest

def losesFinal (tables : CaseTables) (before rest : List Char) : Bool :=
  tables.ignorableThenCased before && tables.isOpen rest

def gainsFinal (tables : CaseTables) (before rest : List Char) : Bool :=
  tables.isOpen before && !tables.ignorableThenCased rest

/-- The lowercase form of the text depends on what stands around it. -/
def dependsOnSurroundings (tables : CaseTables) (text : List Char) : Bool :=
  anySigma tables.losesFinal [] text || anySigma tables.gainsFinal [] text

/-- A sigma that neither loses nor gains its final form keeps it anywhere. -/
theorem lowercaseSigma_stable {before rest : List Char}
    (keeps : tables.losesFinal before rest = false)
    (stays : tables.gainsFinal before rest = false)
    (outside after : List Char) :
    tables.lowercaseSigma (before ++ outside) (rest ++ after) =
      tables.lowercaseSigma before rest := by
  rw [losesFinal] at keeps
  rw [gainsFinal] at stays
  rw [lowercaseSigma, lowercaseSigma, ignorableThenCased_append,
    ignorableThenCased_append]
  cases openBefore : tables.isOpen before with
  | true =>
      have cased := ignorableThenCased_of_isOpen openBefore
      have letter : tables.ignorableThenCased rest = true := by
        simpa [openBefore] using stays
      have closed : tables.isOpen rest = false := by
        by_contra isOpen
        rw [Bool.not_eq_false] at isOpen
        rw [ignorableThenCased_of_isOpen isOpen] at letter
        cases letter
      simp [cased, letter, closed]
  | false =>
      cases cased : tables.ignorableThenCased before with
      | false => simp
      | true =>
          have closed : tables.isOpen rest = false := by
            simpa [cased] using keeps
          simp [closed]

theorem lowercaseBetween_stable {before text : List Char}
    (keeps : anySigma tables.losesFinal before text = false)
    (stays : anySigma tables.gainsFinal before text = false)
    (outside after : List Char) :
    tables.lowercaseBetween (before ++ outside) text after =
      tables.lowercaseBetween before text [] := by
  induction text generalizing before with
  | nil => rfl
  | cons char rest induction =>
      rw [anySigma, Bool.or_eq_false_iff] at keeps stays
      rw [lowercaseBetween, lowercaseBetween, ← List.cons_append,
        induction keeps.2 stays.2]
      by_cases sigma : char = 'Σ'
      · subst sigma
        rw [if_pos rfl, if_pos rfl, List.append_nil,
          lowercaseSigma_stable (by simpa using keeps.1)
            (by simpa using stays.1)]
      · rw [if_neg sigma, if_neg sigma]

theorem toLowercase_infix {text whole : List Char}
    (stable : tables.dependsOnSurroundings text = false)
    (contained : text <:+: whole) :
    tables.toLowercase text <:+: tables.toLowercase whole := by
  rw [dependsOnSurroundings, Bool.or_eq_false_iff] at stable
  rcases contained with ⟨before, after, rfl⟩
  have same := lowercaseBetween_stable stable.1 stable.2 before.reverse after
  refine ⟨tables.lowercaseBetween [] before (text ++ after),
    tables.lowercaseAfter (text.reverse ++ before.reverse) after, ?_⟩
  rw [toLowercase_eq text, ← same, toLowercase, List.append_assoc before,
    lowercaseAfter_append [] before, lowercaseAfter_append _ text,
    List.append_nil, List.append_assoc]
  rfl

/-! ## Surroundings that change a sigma -/

structure Removes (tables : CaseTables) (form : Char)
    (outside after : List Char) (condition : List Char → List Char → Bool) :
    Prop where
  onlyTakes : ∀ before rest,
    tables.lowercaseSigma (before ++ outside) (rest ++ after) = form →
      tables.lowercaseSigma before rest = form
  loses : ∀ before rest, condition before rest = true →
    tables.lowercaseSigma before rest = form ∧
      tables.lowercaseSigma (before ++ outside) (rest ++ after) ≠ form

section Changed

variable {form : Char} {outside after : List Char}
  {condition : List Char → List Char → Bool}
  (removes : tables.Removes form outside after condition)

include removes in
theorem count_lowered_le (before : List Char) (char : Char)
    (rest : List Char) :
    (if char = 'Σ' then
        [tables.lowercaseSigma (before ++ outside) (rest ++ after)]
      else tables.lowercase char).count form ≤
      (if char = 'Σ' then [tables.lowercaseSigma before rest]
      else tables.lowercase char).count form := by
  by_cases sigma : char = 'Σ'
  · rw [if_pos sigma, if_pos sigma, List.count_singleton, List.count_singleton]
    split
    · next same =>
        have alone := removes.onlyTakes before rest (beq_iff_eq.mp same)
        rw [if_pos (beq_iff_eq.mpr alone)]
    · exact Nat.zero_le _
  · rw [if_neg sigma, if_neg sigma]

include removes in
theorem count_lowercaseBetween_le (before text : List Char) :
    (tables.lowercaseBetween (before ++ outside) text after).count form ≤
      (tables.lowercaseBetween before text []).count form := by
  induction text generalizing before with
  | nil => exact le_refl _
  | cons char rest induction =>
      rw [lowercaseBetween, lowercaseBetween, List.count_append,
        List.count_append, List.append_nil]
      exact Nat.add_le_add (count_lowered_le removes before char rest)
        (induction (char :: before))

include removes in
theorem count_lowercaseBetween_lt {before text : List Char}
    (found : anySigma condition before text = true) :
    (tables.lowercaseBetween (before ++ outside) text after).count form <
      (tables.lowercaseBetween before text []).count form := by
  induction text generalizing before with
  | nil => cases found
  | cons char rest induction =>
      rw [anySigma, Bool.or_eq_true] at found
      rw [lowercaseBetween, lowercaseBetween, List.count_append,
        List.count_append, List.append_nil]
      rcases found with here | later
      · rw [Bool.and_eq_true, beq_iff_eq] at here
        rcases removes.loses before rest here.2 with ⟨alone, between⟩
        apply Nat.add_lt_add_of_lt_of_le
        · rw [if_pos here.1, if_pos here.1, alone, List.count_singleton_self,
            List.count_singleton, if_neg (by simpa using between)]
          exact Nat.zero_lt_one
        · exact count_lowercaseBetween_le removes (char :: before) rest
      · exact Nat.add_lt_add_of_le_of_lt
          (count_lowered_le removes before char rest) (induction later)

theorem count_toLowercase_around
    (asciiOutside : ∀ char ∈ outside, char.toNat < 128)
    (asciiAfter : ∀ char ∈ after, char.toNat < 128)
    (unlikeOutside : form ∉ outside.map Char.toLower)
    (unlikeAfter : form ∉ after.map Char.toLower) (text : List Char) :
    (tables.toLowercase (outside.reverse ++ (text ++ after))).count form =
      (tables.lowercaseBetween outside text after).count form := by
  have last := @lowercaseAfter_ascii tables after (text.reverse ++ outside) []
    asciiAfter
  rw [List.append_nil] at last
  rw [toLowercase, lowercaseAfter_ascii tables [] _ (by simpa using asciiOutside),
    List.reverse_reverse, List.append_nil, lowercaseAfter_append, last,
    List.count_append, List.count_append, List.count_append,
    List.map_reverse, List.count_reverse, List.count_eq_zero.mpr unlikeOutside,
    List.count_eq_zero.mpr unlikeAfter]
  simp [lowercaseAfter]

include removes in
theorem toLowercase_not_infix
    (asciiOutside : ∀ char ∈ outside, char.toNat < 128)
    (asciiAfter : ∀ char ∈ after, char.toNat < 128)
    (unlikeOutside : form ∉ outside.map Char.toLower)
    (unlikeAfter : form ∉ after.map Char.toLower) {text : List Char}
    (found : anySigma condition [] text = true) :
    ¬tables.toLowercase text <:+:
      tables.toLowercase (outside.reverse ++ (text ++ after)) := by
  intro contained
  have fewer := count_lowercaseBetween_lt removes found
  have counts := contained.sublist.count_le form
  rw [toLowercase_eq text, count_toLowercase_around asciiOutside asciiAfter
    unlikeOutside unlikeAfter] at counts
  exact absurd counts (not_le.mpr fewer)

end Changed

/-! ## A blank and a letter -/

/-- What the tables say of a letter and of a blank. -/
structure AsciiCasing (tables : CaseTables) : Prop where
  letterCased : tables.cased 'a' = true
  letterSeen : tables.caseIgnorable 'a' = false
  blankUncased : tables.cased ' ' = false
  blankSeen : tables.caseIgnorable ' ' = false

theorem lowercaseSigma_eq_final_iff {before after : List Char} :
    tables.lowercaseSigma before after = 'ς' ↔
      tables.ignorableThenCased before = true ∧
        tables.ignorableThenCased after = false := by
  rw [lowercaseSigma]
  cases tables.ignorableThenCased before with
  | true => cases tables.ignorableThenCased after <;> decide
  | false => simp

theorem lowercaseSigma_eq_medial_iff {before after : List Char} :
    tables.lowercaseSigma before after = 'σ' ↔
      (tables.ignorableThenCased before = true →
        tables.ignorableThenCased after = true) := by
  rw [lowercaseSigma]
  cases tables.ignorableThenCased before with
  | true => cases tables.ignorableThenCased after <;> decide
  | false => simp

section Casing

variable (casing : AsciiCasing tables)
include casing

theorem ignorableThenCased_letter (chars : List Char) :
    tables.ignorableThenCased (chars ++ ['a']) =
      (tables.isOpen chars || tables.ignorableThenCased chars) := by
  rw [ignorableThenCased_append, ignorableThenCased_cons, casing.letterSeen,
    casing.letterCased]
  cases tables.isOpen chars <;> rfl

theorem ignorableThenCased_blank (chars : List Char) :
    tables.ignorableThenCased (chars ++ [' ']) =
      tables.ignorableThenCased chars := by
  rw [ignorableThenCased_append, ignorableThenCased_cons, casing.blankSeen,
    casing.blankUncased]
  cases isOpen : tables.isOpen chars with
  | true => rw [ignorableThenCased_of_isOpen isOpen]; rfl
  | false => rfl

theorem removes_final :
    tables.Removes 'ς' [' '] ['a'] tables.losesFinal where
  onlyTakes := by
    intro before rest final
    rw [lowercaseSigma_eq_final_iff, ignorableThenCased_blank casing,
      ignorableThenCased_letter casing, Bool.or_eq_false_iff] at final
    exact lowercaseSigma_eq_final_iff.mpr ⟨final.1, final.2.2⟩
  loses := by
    intro before rest loses
    rw [losesFinal, Bool.and_eq_true] at loses
    rw [lowercaseSigma_eq_final_iff, ne_eq, lowercaseSigma_eq_final_iff,
      ignorableThenCased_letter casing, loses.2, Bool.true_or]
    exact ⟨⟨loses.1, ignorableThenCased_of_isOpen loses.2⟩,
      fun final => absurd final.2 (by decide)⟩

theorem removes_medial :
    tables.Removes 'σ' ['a'] [] tables.gainsFinal where
  onlyTakes := by
    intro before rest medial
    rw [lowercaseSigma_eq_medial_iff, ignorableThenCased_letter casing,
      List.append_nil] at medial
    rw [lowercaseSigma_eq_medial_iff]
    intro cased
    rw [cased, Bool.or_true] at medial
    exact medial rfl
  loses := by
    intro before rest gains
    rw [gainsFinal, Bool.and_eq_true, Bool.not_eq_true'] at gains
    rw [lowercaseSigma_eq_medial_iff, ne_eq, lowercaseSigma_eq_medial_iff,
      ignorableThenCased_letter casing, gains.1, List.append_nil, gains.2,
      ignorableThenCased_of_isOpen gains.1]
    decide

/-- Where the surroundings matter, some text contains this one and not its
lowercase form. -/
theorem exists_toLowercase_not_infix {text : List Char}
    (depends : tables.dependsOnSurroundings text = true) :
    ∃ first ∈ [' ', 'a'], ∃ after : List Char,
      ¬tables.toLowercase text <:+:
        tables.toLowercase (first :: (text ++ after)) := by
  rw [dependsOnSurroundings, Bool.or_eq_true] at depends
  rcases depends with loses | gains
  · exact ⟨' ', by decide, ['a'], toLowercase_not_infix (removes_final casing)
      (by simp) (by simp) (by decide) (by decide) loses⟩
  · exact ⟨'a', by decide, [], toLowercase_not_infix (removes_medial casing)
      (by simp) nofun (by decide) nofun gains⟩

end Casing

theorem sigma_mem_of_anySigma {condition : List Char → List Char → Bool}
    {before text : List Char} (found : anySigma condition before text = true) :
    'Σ' ∈ text := by
  induction text generalizing before with
  | nil => cases found
  | cons char rest induction =>
      rw [anySigma, Bool.or_eq_true, Bool.and_eq_true, beq_iff_eq] at found
      rcases found with here | later
      · rw [here.1]
        exact List.mem_cons_self
      · exact List.mem_cons_of_mem _ (induction later)

theorem sigma_mem_of_dependsOnSurroundings {text : List Char}
    (depends : tables.dependsOnSurroundings text = true) : 'Σ' ∈ text := by
  rw [dependsOnSurroundings, Bool.or_eq_true] at depends
  rcases depends with loses | gains
  · exact sigma_mem_of_anySigma loses
  · exact sigma_mem_of_anySigma gains

end PasswordProfile.Text.CaseTables
