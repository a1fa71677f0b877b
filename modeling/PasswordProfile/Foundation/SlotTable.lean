import Mathlib.Data.Fin.Tuple.Basic
import Mathlib.Data.List.Nodup
import Mathlib.Logic.Function.Basic

/-! # Tables of owned slots

A fixed array whose cells are either free or owned by a key. The table is read
as a map from keys to cells as long as no key owns two cells; every operation
is described by one lemma on that map.
-/

namespace PasswordProfile.SlotTable

variable {size : Nat} {Cell : Type u} {Key : Type v}

def Unshared (owner : Cell → Option Key) (cells : Fin size → Cell) : Prop :=
  ∀ first second key, owner (cells first) = some key →
    owner (cells second) = some key → first = second

theorem Unshared.update {owner : Cell → Option Key}
    {cells : Fin size → Cell} {index : Fin size} {cell : Cell}
    (unshared : Unshared owner cells)
    (alone : ∀ key, owner cell = some key → ∀ other, other ≠ index →
      owner (cells other) ≠ some key) :
    Unshared owner (Function.update cells index cell) := by
  intro first second key ownsFirst ownsSecond
  by_cases firstHere : first = index
  · by_cases secondHere : second = index
    · rw [firstHere, secondHere]
    · rw [firstHere, Function.update_self] at ownsFirst
      rw [Function.update_of_ne secondHere] at ownsSecond
      exact absurd ownsSecond (alone key ownsFirst second secondHere)
  · rw [Function.update_of_ne firstHere] at ownsFirst
    by_cases secondHere : second = index
    · rw [secondHere, Function.update_self] at ownsSecond
      exact absurd ownsFirst (alone key ownsSecond first firstHere)
    · rw [Function.update_of_ne secondHere] at ownsSecond
      exact unshared first second key ownsFirst ownsSecond

variable [DecidableEq Key] (owner : Cell → Option Key)

/-- The first cell that `key` owns. -/
def slotOf (cells : Fin size → Cell) (key : Key) : Option (Fin size) :=
  Fin.find? fun index => owner (cells index) == some key

def contents (cells : Fin size → Cell) (key : Key) : Option Cell :=
  (slotOf owner cells key).map cells

def place (reusable : Cell → Bool) (cells : Fin size → Cell) (key : Key)
    (cell : Cell) : Option (Fin size → Cell) :=
  match slotOf owner cells key with
  | some index => some (Function.update cells index cell)
  | none =>
      match Fin.find? fun index => reusable (cells index) with
      | some index => some (Function.update cells index cell)
      | none => none

def release (blank : Cell) (cells : Fin size → Cell) (key : Key) :
    Fin size → Cell :=
  match slotOf owner cells key with
  | some index => Function.update cells index blank
  | none => cells

/-- Copy the accepted items into consecutive cells until the table is full,
and count the cells in use. -/
def fillFrom (accept : Cell → Bool) :
    List Cell → Nat → (Fin size → Cell) → (Fin size → Cell) × Nat
  | [], slot, cells => (cells, slot)
  | item :: rest, slot, cells =>
      if inside : slot < size then
        if accept item then
          fillFrom accept rest (slot + 1)
            (Function.update cells ⟨slot, inside⟩ item)
        else fillFrom accept rest slot cells
      else (cells, slot)

variable {owner}

/-! ## Reading the map -/

section Reading

variable {cells : Fin size → Cell} {key : Key}

theorem slotOf_eq_none_iff :
    slotOf owner cells key = none ↔ ∀ index, owner (cells index) ≠ some key := by
  simp [slotOf]

theorem owner_of_slotOf {index : Fin size}
    (found : slotOf owner cells key = some index) :
    owner (cells index) = some key := by
  have accepted := Fin.eq_true_of_find?_eq_some found
  simpa using accepted

theorem contents_eq_none_iff :
    contents owner cells key = none ↔
      ∀ index, owner (cells index) ≠ some key := by
  rw [contents, Option.map_eq_none_iff, slotOf_eq_none_iff]

theorem Unshared.contents_eq_some_iff (unshared : Unshared owner cells)
    {cell : Cell} :
    contents owner cells key = some cell ↔
      ∃ index, cells index = cell ∧ owner cell = some key := by
  rw [contents, Option.map_eq_some_iff]
  constructor
  · intro given
    rcases given with ⟨index, found, rfl⟩
    exact ⟨index, rfl, owner_of_slotOf found⟩
  · intro given
    rcases given with ⟨index, rfl, owned⟩
    cases found : slotOf owner cells key with
    | none => exact absurd owned (slotOf_eq_none_iff.mp found index)
    | some other =>
        have same := unshared other index key (owner_of_slotOf found) owned
        exact ⟨other, rfl, by rw [same]⟩

end Reading

/-! ## Writing one cell -/

section Writing

variable {cells : Fin size → Cell} {index : Fin size} {cell : Cell}

theorem map_find?_update {accepts : Cell → Bool}
    (old : accepts (cells index) = false) (new : accepts cell = false) :
    (Fin.find? fun other =>
        accepts (Function.update cells index cell other)).map
          (Function.update cells index cell) =
      (Fin.find? fun other => accepts (cells other)).map cells := by
  have same : (fun other => accepts (Function.update cells index cell other)) =
      fun other => accepts (cells other) := by
    funext other
    by_cases here : other = index
    · rw [here, Function.update_self, old, new]
    · rw [Function.update_of_ne here]
  rw [same]
  cases found : Fin.find? fun other => accepts (cells other) with
  | none => rfl
  | some other =>
      have elsewhere : other ≠ index := by
        intro here
        have accepted := Fin.eq_true_of_find?_eq_some found
        rw [here, old] at accepted
        cases accepted
      exact congrArg some (Function.update_of_ne elsewhere ..)

theorem contents_update_other {other : Key}
    (old : owner (cells index) ≠ some other) (new : owner cell ≠ some other) :
    contents owner (Function.update cells index cell) other =
      contents owner cells other :=
  @map_find?_update _ _ _ _ _ (fun cell => owner cell == some other)
    (beq_eq_false_iff_ne.mpr old) (beq_eq_false_iff_ne.mpr new)

theorem contents_update (unshared : Unshared owner cells)
    (unsharedAfter : Unshared owner (Function.update cells index cell))
    (key : Key) :
    contents owner (Function.update cells index cell) key =
      if owner cell = some key then some cell
      else if owner (cells index) = some key then none
      else contents owner cells key := by
  by_cases ownsNew : owner cell = some key
  · rw [if_pos ownsNew, unsharedAfter.contents_eq_some_iff]
    exact ⟨index, Function.update_self .., ownsNew⟩
  rw [if_neg ownsNew]
  by_cases ownsOld : owner (cells index) = some key
  · rw [if_pos ownsOld, contents_eq_none_iff]
    intro other
    by_cases here : other = index
    · rwa [here, Function.update_self]
    · rw [Function.update_of_ne here]
      exact fun owned => here (unshared other index key owned ownsOld)
  · rw [if_neg ownsOld]
    refine Option.ext fun found => ?_
    rw [unsharedAfter.contents_eq_some_iff, unshared.contents_eq_some_iff]
    apply exists_congr
    intro other
    by_cases here : other = index
    · rw [here, Function.update_self]
      constructor
      · intro given
        rcases given with ⟨rfl, owned⟩
        exact absurd owned ownsNew
      · intro given
        rcases given with ⟨rfl, owned⟩
        exact absurd owned ownsOld
    · rw [Function.update_of_ne here]

end Writing

/-! ## The operations on the map -/

section Operations

variable {cells after : Fin size → Cell} {key : Key} {cell blank : Cell}
variable {reusable : Cell → Bool}

/-- Everything `place` can do. -/
theorem place_cases (reusable : Cell → Bool) (cells : Fin size → Cell)
    (key : Key) (cell : Cell) :
    (∃ index, place owner reusable cells key cell =
        some (Function.update cells index cell) ∧
      (owner (cells index) = some key ∨
        reusable (cells index) = true ∧
          ∀ other, owner (cells other) ≠ some key)) ∨
      (place owner reusable cells key cell = none ∧
        (∀ index, reusable (cells index) = false) ∧
        ∀ index, owner (cells index) ≠ some key) := by
  rw [place]
  cases own : slotOf owner cells key with
  | some index => exact .inl ⟨index, rfl, .inl (owner_of_slotOf own)⟩
  | none =>
      have missing := slotOf_eq_none_iff.mp own
      cases free : Fin.find? fun index => reusable (cells index) with
      | some index =>
          exact .inl ⟨index, rfl,
            .inr ⟨Fin.eq_true_of_find?_eq_some free, missing⟩⟩
      | none =>
          exact .inr ⟨rfl, fun index =>
            Fin.eq_false_of_find?_eq_none free index, missing⟩

theorem place_eq_none_iff :
    place owner reusable cells key cell = none ↔
      ∀ index, owner (cells index) ≠ some key ∧
        reusable (cells index) = false := by
  rcases @place_cases _ _ _ _ owner reusable cells key cell with
    ⟨index, placed, source⟩ | ⟨refused, full, missing⟩
  · rw [placed]
    refine ⟨nofun, fun all => ?_⟩
    rcases source with own | ⟨spare, _⟩
    · exact absurd own (all index).1
    · rw [(all index).2] at spare
      cases spare
  · exact ⟨fun _ index => ⟨missing index, full index⟩, fun _ => refused⟩

/-- Placing a cell sets the key; another key can only lose a reusable cell. -/
theorem place_spec (unshared : Unshared owner cells)
    (owned : owner cell = some key)
    (placed : place owner reusable cells key cell = some after) :
    Unshared owner after ∧ contents owner after key = some cell ∧
      ∀ other, other ≠ key →
        contents owner after other = contents owner cells other ∨
          (contents owner after other = none ∧
            ∃ old, contents owner cells other = some old ∧
              reusable old = true) := by
  rcases @place_cases _ _ _ _ owner reusable cells key cell with
    ⟨index, result, source⟩ | ⟨refused, _⟩
  · rw [result, Option.some.injEq] at placed
    subst placed
    have unsharedAfter :
        Unshared owner (Function.update cells index cell) := by
      apply unshared.update
      intro holder holds other different
      rw [owned, Option.some.injEq] at holds
      subst holds
      rcases source with own | ⟨_, missing⟩
      · exact fun shared => different (unshared other index key shared own)
      · exact missing other
    have read := contents_update unshared unsharedAfter
    refine ⟨unsharedAfter, by rw [read, if_pos owned], fun other different => ?_⟩
    have notNew : owner cell ≠ some other := by
      rw [owned]
      exact fun same => different (Option.some.inj same).symm
    rw [read, if_neg notNew]
    by_cases lost : owner (cells index) = some other
    · rw [if_pos lost]
      rcases source with own | ⟨spare, _⟩
      · rw [own, Option.some.injEq] at lost
        exact absurd lost.symm different
      · exact .inr ⟨rfl, cells index,
          unshared.contents_eq_some_iff.mpr ⟨index, rfl, lost⟩, spare⟩
    · exact .inl (if_neg lost)
  · rw [refused] at placed
    cases placed

theorem release_spec (unshared : Unshared owner cells)
    (free : owner blank = none) :
    Unshared owner (release owner blank cells key) ∧
      contents owner (release owner blank cells key) key = none ∧
      ∀ other, other ≠ key →
        contents owner (release owner blank cells key) other =
          contents owner cells other := by
  rw [release]
  cases own : slotOf owner cells key with
  | none => exact ⟨unshared, by rw [contents, own]; rfl, fun _ _ => rfl⟩
  | some index =>
      have owned := owner_of_slotOf own
      have unsharedAfter :
          Unshared owner (Function.update cells index blank) := by
        apply unshared.update
        intro holder holds
        rw [free] at holds
        cases holds
      have read := contents_update unshared unsharedAfter
      simp only [free, reduceCtorEq, if_false] at read
      refine ⟨unsharedAfter, by rw [read, if_pos owned], fun other different => ?_⟩
      rw [read, if_neg]
      rw [owned]
      exact fun same => different (Option.some.inj same).symm

end Operations

/-! ## Filling the table -/

section Filling

variable {accept : Cell → Bool}

theorem fillFrom_cells (items : List Cell) (slot : Nat)
    (cells : Fin size → Cell) (index : Fin size) :
    (fillFrom accept items slot cells).1 index =
      if index.val < slot then cells index
      else ((items.filter accept)[index.val - slot]?).getD (cells index) := by
  induction items generalizing slot cells with
  | nil => simp [fillFrom]
  | cons item rest induction =>
      rw [fillFrom]
      by_cases inside : slot < size
      · rw [dif_pos inside]
        cases accepted : accept item with
        | false =>
            simp only [Bool.false_eq_true, if_false]
            rw [induction, List.filter_cons_of_neg (by simp [accepted])]
        | true =>
            simp only [if_true]
            rw [induction, List.filter_cons_of_pos accepted]
            rcases Nat.lt_trichotomy index.val slot with before | here | beyond
            · rw [if_pos before, if_pos (Nat.lt_succ_of_lt before),
                Function.update_of_ne (Fin.ne_of_val_ne (Nat.ne_of_lt before))]
            · have same : index = ⟨slot, inside⟩ := Fin.ext here
              rw [if_pos (here ▸ Nat.lt_succ_self _),
                if_neg (here ▸ Nat.lt_irrefl _), same, Function.update_self]
              simp
            · rw [if_neg (by omega), if_neg (by omega),
                Function.update_of_ne (Fin.ne_of_val_ne (Nat.ne_of_gt beyond)),
                show index.val - slot = index.val - (slot + 1) + 1 by omega,
                List.getElem?_cons_succ]
      · rw [dif_neg inside, if_pos (Nat.lt_of_lt_of_le index.isLt
          (Nat.le_of_not_lt inside))]

/-- Filling a blank table with items of distinct owners that all fit makes the
table hold exactly these items. -/
theorem fill_spec {blank : Cell} (free : owner blank = none)
    {items : List Cell} (distinct : ((items.filter accept).map owner).Nodup)
    (fits : (items.filter accept).length ≤ size) {cells : Fin size → Cell}
    (filled : (fillFrom accept items 0 fun _ => blank).1 = cells) :
    Unshared owner cells ∧ ∀ key cell,
      contents owner cells key = some cell ↔
        cell ∈ items.filter accept ∧ owner cell = some key := by
  have read : ∀ index,
      cells index = ((items.filter accept)[index.val]?).getD blank := by
    intro index
    rw [← filled, fillFrom_cells, if_neg (Nat.not_lt_zero _), Nat.sub_zero]
  have stored : ∀ {index key}, owner (cells index) = some key →
      ∃ bound : index.val < (items.filter accept).length,
        cells index = (items.filter accept)[index.val] := by
    intro index key holds
    by_cases bound : index.val < (items.filter accept).length
    · exact ⟨bound, by rw [read, List.getElem?_eq_getElem bound]; rfl⟩
    · rw [read, List.getElem?_eq_none (Nat.le_of_not_lt bound),
        Option.getD_none, free] at holds
      cases holds
  have unshared : Unshared owner cells := by
    intro first second key ownsFirst ownsSecond
    rcases stored ownsFirst with ⟨firstBound, firstRead⟩
    rcases stored ownsSecond with ⟨secondBound, secondRead⟩
    rw [firstRead] at ownsFirst
    rw [secondRead] at ownsSecond
    apply Fin.ext
    rw [← List.length_map owner] at firstBound secondBound
    have same : ((items.filter accept).map owner)[first.val] =
        ((items.filter accept).map owner)[second.val] := by
      rw [List.getElem_map, List.getElem_map, ownsFirst, ownsSecond]
    exact distinct.getElem_inj_iff.mp same
  refine ⟨unshared, fun key cell => ?_⟩
  rw [unshared.contents_eq_some_iff]
  constructor
  · intro given
    rcases given with ⟨index, rfl, holds⟩
    rcases stored holds with ⟨bound, same⟩
    exact ⟨same ▸ List.getElem_mem bound, holds⟩
  · intro given
    rcases given with ⟨member, holds⟩
    rcases List.getElem_of_mem member with ⟨position, bound, rfl⟩
    refine ⟨⟨position, Nat.lt_of_lt_of_le bound fits⟩, ?_, holds⟩
    rw [read, List.getElem?_eq_getElem bound]
    rfl

end Filling

end PasswordProfile.SlotTable
