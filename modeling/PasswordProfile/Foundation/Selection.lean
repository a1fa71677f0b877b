import Mathlib.Data.List.AList
import Mathlib.Data.List.Sort

/-! # Bounded ordered selection

The rows that `ORDER BY … LIMIT` returns. With a total of at most the limit it
returns every row.
-/

namespace PasswordProfile.Selection

variable {Row : Type u} (order : Row → Row → Prop) [DecidableRel order]

def select (limit : Nat) (rows : List Row) : List Row :=
  (rows.insertionSort order).take limit

variable {order} {limit : Nat} {rows : List Row}

theorem mem_of_mem_select {row : Row} (member : row ∈ select order limit rows) :
    row ∈ rows :=
  List.mem_insertionSort order |>.mp (List.mem_of_mem_take member)

theorem select_length : (select order limit rows).length =
    min limit rows.length := by
  rw [select, List.length_take, List.length_insertionSort]

theorem mem_select (fits : rows.length ≤ limit) {row : Row}
    (member : row ∈ rows) : row ∈ select order limit rows := by
  rw [select, List.take_of_length_le (by rwa [List.length_insertionSort])]
  exact (List.mem_insertionSort order).mpr member

/-- A strictly ordered list of the rows tells which ones are selected, in
whatever order the rows were read. -/
theorem select_eq_take [Std.Total order] [IsTrans Row order]
    {ordered : List Row} (same : rows.Perm ordered)
    (sorted : ordered.Pairwise fun left right =>
      order left right ∧ ¬order right left) :
    select order limit rows = ordered.take limit := by
  have perm := (List.perm_insertionSort order rows).trans same
  have forward : ordered.Pairwise fun left right =>
      order left right → order right left → left = right :=
    sorted.imp fun apart _ back => absurd back apart.2
  have backward : ordered.Pairwise (flip fun left right =>
      order left right → order right left → left = right) :=
    sorted.imp fun apart back _ => absurd back apart.2
  have strict := forward.forall_of_forall_of_flip (fun _ _ _ _ => rfl) backward
  have equal : rows.insertionSort order = ordered := by
    apply perm.eq_of_pairwise
    · intro left right leftMember rightMember
      exact strict (perm.mem_iff.mp leftMember) rightMember
    · exact List.pairwise_insertionSort order rows
    · exact sorted.imp fun apart => apart.1
  rw [select, equal]

theorem select_map_nodup {key : Row → Key} (distinct : (rows.map key).Nodup) :
    ((select order limit rows).map key).Nodup := by
  have sorted := List.perm_insertionSort order rows
  have sortedDistinct := (sorted.map key).nodup_iff.mpr distinct
  exact sortedDistinct.sublist ((List.take_sublist limit _).map key)

/-- Nothing is lost exactly when the limit admits every row and every row can
be prepared. -/
theorem length_le_prepared_iff {prepare : Row → Option Item} :
    rows.length ≤ ((select order limit rows).filterMap prepare).length ↔
      rows.length ≤ limit ∧ ∀ row ∈ rows, (prepare row).isSome = true := by
  have prepared := List.length_filterMap_le prepare (select order limit rows)
  have selected := @select_length _ order _ limit rows
  constructor
  · intro kept
    have fits : rows.length ≤ limit := by omega
    have whole : ((select order limit rows).filterMap prepare).length =
        (select order limit rows).length := by omega
    refine ⟨fits, fun row member => ?_⟩
    exact List.filterMap_length_eq_length.mp whole row (mem_select fits member)
  · intro given
    rcases given with ⟨fits, preparable⟩
    have whole := List.filterMap_length_eq_length.mpr
      fun row (member : row ∈ select order limit rows) =>
        preparable row (mem_of_mem_select member)
    omega

section Named

variable {name : Row → String} {item : Row → Item}

theorem excess_eq_zero_iff :
    max ((rows.length : Int) - ((select order limit rows).filterMap fun row =>
        if (name row).isEmpty then none else some (item row)).length) 0 = 0 ↔
      rows.length ≤ limit ∧ ∀ row ∈ rows, name row ≠ "" := by
  have nothingLost : ∀ total prepared : Nat,
      max ((total : Int) - prepared) 0 = 0 ↔ total ≤ prepared := by
    intro total prepared
    omega
  rw [nothingLost, length_le_prepared_iff]
  apply and_congr_right
  intro _
  apply forall₂_congr
  intro row _
  by_cases empty : name row = "" <;> simp [empty]

theorem prepared_eq_map (named : ∀ row ∈ rows, name row ≠ "") :
    ((select order limit rows).filterMap fun row =>
        if (name row).isEmpty then none else some (item row)) =
      (select order limit rows).map item := by
  rw [← List.filterMap_eq_map]
  apply List.filterMap_congr
  intro row member
  simp [named row (mem_of_mem_select member)]

end Named

theorem find?_key_eq_some_iff {Key : Type v} [BEq Key] [LawfulBEq Key]
    {key : Row → Key} (distinct : (rows.map key).Nodup) {wanted : Key}
    {row : Row} :
    rows.find? (key · == wanted) = some row ↔ row ∈ rows ∧ key row = wanted := by
  constructor
  · intro found
    exact ⟨List.mem_of_find?_eq_some found,
      by simpa using List.find?_some found⟩
  · intro given
    rcases given with ⟨member, rfl⟩
    have present : (rows.find? (key · == key row)).isSome := by
      rw [List.find?_isSome]
      exact ⟨row, member, by simp⟩
    rcases Option.isSome_iff_exists.mp present with ⟨other, found⟩
    have sameKey : key other = key row := by
      simpa using List.find?_some found
    rw [found, List.inj_on_of_nodup_map distinct
      (List.mem_of_find?_eq_some found) member sameKey]

theorem filterMap_map_nodup {Key : Type u} {Columns : Key → Type v}
    {Result : Type w} {entries : List (Sigma Columns)}
    (keys : entries.NodupKeys) {keep : Sigma Columns → Option (Key × Result)}
    (keeps : ∀ row kept, keep row = some kept → kept.1 = row.1) :
    ((entries.filterMap keep).map Prod.fst).Nodup := by
  induction entries with
  | nil => exact List.nodup_nil
  | cons row rest induction =>
      rw [List.nodupKeys_cons] at keys
      rw [List.filterMap_cons]
      split
      · exact induction keys.2
      · next kept found =>
          rw [List.map_cons, List.nodup_cons]
          refine ⟨fun member => keys.1 ?_, induction keys.2⟩
          rcases List.mem_map.mp member with ⟨other, later, same⟩
          rcases List.mem_filterMap.mp later with ⟨source, inRest, otherKept⟩
          rw [keeps row kept found, keeps source other otherKept] at same
          exact List.mem_map.mpr ⟨source, inRest, same⟩

end PasswordProfile.Selection
