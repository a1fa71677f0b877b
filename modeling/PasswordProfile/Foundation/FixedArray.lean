import Mathlib.Data.List.Basic
import Mathlib.Data.List.Induction
import Mathlib.Data.Nat.ModEq
import Mathlib.Data.Nat.Basic
import Mathlib.Tactic.SplitIfs

/-! # Fixed-size arrays

An array of `size` cells is a function from its indices. The two idioms
developed here are circular windows, which read a queue out of a ring of
cells, and in-place compaction, which slides the kept cells of a prefix down
over the dropped ones.
-/

namespace PasswordProfile.FixedArray

def store (cells : Fin size → α) (index : Nat) (value : α) : Fin size → α :=
  fun cell => if cell.val = index then value else cells cell

theorem store_same (cells : Fin size → α) {index : Nat} (value : α)
    {cell : Fin size} (same : cell.val = index) :
    store cells index value cell = value := by
  simp [store, same]

theorem store_other (cells : Fin size → α) {index : Nat} (value : α)
    {cell : Fin size} (different : cell.val ≠ index) :
    store cells index value cell = cells cell := by
  simp [store, different]

/-! ## Circular windows -/

section CircularWindow

variable {size : Nat} [NeZero size]

/-- The `count` cells met when walking up from `first`, wrapping at the end. -/
def window (cells : Fin size → α) (first : Nat) : Nat → List α
  | 0 => []
  | count + 1 => cells (Fin.ofNat size first) :: window cells (first + 1) count

@[simp] theorem window_length (cells : Fin size → α) (first count : Nat) :
    (window cells first count).length = count := by
  induction count generalizing first with
  | zero => rfl
  | succ count induction => simp [window, induction]

theorem window_succ_last (cells : Fin size → α) (first count : Nat) :
    window cells first (count + 1) =
      window cells first count ++ [cells (Fin.ofNat size (first + count))] := by
  induction count generalizing first with
  | zero => rfl
  | succ count induction =>
      rw [window, induction (first + 1), window]
      simp [Nat.add_assoc, Nat.add_comm 1 count]

theorem window_congr (left right : Fin size → α) {first second : Nat}
    {count : Nat}
    (agree : ∀ offset < count, left (Fin.ofNat size (first + offset)) =
      right (Fin.ofNat size (second + offset))) :
    window left first count = window right second count := by
  induction count generalizing first second with
  | zero => rfl
  | succ count induction =>
      rw [window, window]
      congr 1
      · simpa using agree 0 (Nat.succ_pos count)
      · apply induction
        intro offset bound
        have later := agree (offset + 1) (Nat.succ_lt_succ bound)
        simpa [Nat.add_assoc, Nat.add_comm 1 offset] using later

theorem window_mod (cells : Fin size → α) (first count : Nat) :
    window cells (first % size) count = window cells first count := by
  apply window_congr
  intro offset _
  congr 1
  simp [Fin.ofNat]

theorem ofNat_add_ne {first near far : Nat} (near_lt : near < far)
    (far_lt : far < size) :
    (Fin.ofNat size (first + near)).val ≠ (first + far) % size := by
  intro same
  have equal : (first + near) % size = (first + far) % size := by
    simpa [Fin.ofNat] using same
  have residues : near % size = far % size :=
    Nat.ModEq.add_left_cancel' first equal
  rw [Nat.mod_eq_of_lt far_lt, Nat.mod_eq_of_lt (near_lt.trans far_lt)]
    at residues
  omega

theorem window_store_last (cells : Fin size → α) (first : Nat) {count : Nat}
    (bound : count < size) (value : α) :
    window (store cells ((first + count) % size) value) first (count + 1) =
      window cells first count ++ [value] := by
  rw [window_succ_last]
  congr 1
  · apply window_congr
    intro offset inside
    exact store_other cells value (ofNat_add_ne inside bound)
  · rw [store_same]
    simp [Fin.ofNat]

end CircularWindow

/-! ## Circular indices -/

/-- The number of cells from `tail` up to `head` in a ring of `size` cells. -/
def occupancy (size head tail : Nat) : Nat := (head + size - tail) % size

theorem occupancy_eq {size head tail : Nat} (headBound : head < size)
    (tailBound : tail < size) :
    occupancy size head tail =
      if tail ≤ head then head - tail else head + size - tail := by
  rw [occupancy]
  split
  · have wrapped : head + size - tail = head - tail + size := by omega
    rw [wrapped, Nat.add_mod_right, Nat.mod_eq_of_lt (by omega)]
  · exact Nat.mod_eq_of_lt (by omega)

theorem next_eq {size index : Nat} (bound : index < size) :
    (index + 1) % size = if index + 1 = size then 0 else index + 1 := by
  split
  · simp_all
  · exact Nat.mod_eq_of_lt (by omega)

theorem add_occupancy {size head tail : Nat} (headBound : head < size)
    (tailBound : tail < size) :
    (tail + occupancy size head tail) % size = head := by
  rw [occupancy_eq headBound tailBound]
  split
  · rw [Nat.mod_eq_of_lt (by omega)]
    omega
  · have wrapped : tail + (head + size - tail) = head + size := by omega
    rw [wrapped, Nat.add_mod_right, Nat.mod_eq_of_lt headBound]

theorem occupancy_lt {size head tail : Nat} (headBound : head < size) :
    occupancy size head tail < size :=
  Nat.mod_lt _ (Nat.zero_lt_of_lt headBound)

theorem occupancy_eq_zero_iff {size head tail : Nat} (headBound : head < size)
    (tailBound : tail < size) : occupancy size head tail = 0 ↔ head = tail := by
  rw [occupancy_eq headBound tailBound]
  split <;> omega

theorem occupancy_next_head {size head tail : Nat} (headBound : head < size)
    (tailBound : tail < size) (room : (head + 1) % size ≠ tail) :
    occupancy size ((head + 1) % size) tail = occupancy size head tail + 1 := by
  have nextBound : (head + 1) % size < size :=
    Nat.mod_lt _ (Nat.zero_lt_of_lt headBound)
  rw [occupancy_eq nextBound tailBound, occupancy_eq headBound tailBound]
  rw [next_eq headBound] at room ⊢
  split_ifs at room ⊢ <;> omega

theorem occupancy_next_tail {size head tail : Nat} (headBound : head < size)
    (tailBound : tail < size) (nonempty : head ≠ tail) :
    occupancy size head ((tail + 1) % size) + 1 = occupancy size head tail := by
  have nextBound : (tail + 1) % size < size :=
    Nat.mod_lt _ (Nat.zero_lt_of_lt headBound)
  rw [occupancy_eq headBound nextBound, occupancy_eq headBound tailBound,
    next_eq tailBound]
  split_ifs <;> omega

/-! ## In-place compaction -/

/-- The two-pointer loop: `read` visits the next `remaining` cells and copies
each kept one down to `write`. Whether a cell is kept may depend on the cells
the loop has not reached yet. -/
def compactLoop (keep : (Fin size → α) → Fin size → Bool) :
    Nat → (Fin size → α) → Nat → Nat → (Fin size → α) × Nat
  | 0, cells, _, write => (cells, write)
  | remaining + 1, cells, read, write =>
      if inside : read < size then
        if keep cells ⟨read, inside⟩ then
          compactLoop keep remaining
            (store cells write (cells ⟨read, inside⟩)) (read + 1) (write + 1)
        else
          compactLoop keep remaining cells (read + 1) write
      else
        (cells, write)

/-- Compact the first `live` cells and blank what the compaction vacated. -/
def compact (keep : (Fin size → α) → Fin size → Bool) (blank : α)
    (cells : Fin size → α) (live : Nat) : (Fin size → α) × Nat :=
  let (moved, write) := compactLoop keep live cells 0 0
  (fun cell =>
    if write ≤ cell.val ∧ cell.val < live then blank else moved cell, write)

/-- Keep the elements that `keep` accepts in front of the list after them. -/
def filterTails (keep : α → List α → Bool) : List α → List α
  | [] => []
  | head :: tail =>
      if keep head tail then head :: filterTails keep tail
      else filterTails keep tail

theorem filterTails_sublist (keep : α → List α → Bool) (items : List α) :
    (filterTails keep items).Sublist items := by
  induction items with
  | nil => exact List.Sublist.slnil
  | cons head tail induction =>
      rw [filterTails]
      split
      · exact induction.cons_cons head
      · exact induction.cons head

/-- `keep` reads a packed array of `live` elements as `keepItem` reads the
packed list. -/
def KeepsLike (keep : (Fin size → Option α) → Fin size → Bool)
    (keepItem : α → List α → Bool) (live : Nat) : Prop :=
  ∀ (cells : Fin size → Option α) (read : Fin size) (head : α)
    (tail : List α), read.val + (head :: tail).length = live →
    (∀ cell : Fin size, read.val ≤ cell.val →
      cells cell = (head :: tail)[cell.val - read.val]?) →
    keep cells read = keepItem head tail

theorem compactLoop_spec {keep : (Fin size → Option α) → Fin size → Bool}
    {keepItem : α → List α → Bool} {live : Nat}
    (alike : KeepsLike keep keepItem live) (inArray : live ≤ size)
    (rest : List α) : ∀ (cells : Fin size → Option α) (read write : Nat),
    write ≤ read → read + rest.length = live →
    (∀ cell : Fin size, read ≤ cell.val →
      cells cell = rest[cell.val - read]?) →
    (compactLoop keep rest.length cells read write).2 =
        write + (filterTails keepItem rest).length ∧
      ∀ cell : Fin size,
        (compactLoop keep rest.length cells read write).1 cell =
          if write ≤ cell.val ∧
              cell.val < write + (filterTails keepItem rest).length then
            (filterTails keepItem rest)[cell.val - write]?
          else cells cell := by
  induction rest with
  | nil =>
      intro cells read write _ _ _
      refine ⟨rfl, fun cell => ?_⟩
      rw [if_neg (by simp [filterTails])]
      rfl
  | cons head tail induction =>
      intro cells read write behind fits agree
      have inside : read < size := by
        simp only [List.length_cons] at fits
        omega
      have here : cells ⟨read, inside⟩ = some head := by
        simpa using agree ⟨read, inside⟩ (le_refl read)
      have kept : keep cells ⟨read, inside⟩ = keepItem head tail :=
        alike cells ⟨read, inside⟩ head tail fits agree
      have fitsTail : read + 1 + tail.length = live := by
        simp only [List.length_cons] at fits
        omega
      have agreeTail : ∀ cell : Fin size, read + 1 ≤ cell.val →
          cells cell = tail[cell.val - (read + 1)]? := by
        intro cell reached
        rw [agree cell (by omega)]
        have shifted : cell.val - read = (cell.val - (read + 1)) + 1 := by omega
        rw [shifted, List.getElem?_cons_succ]
      simp only [List.length_cons, compactLoop, dif_pos inside, kept]
      cases accepted : keepItem head tail with
      | false =>
          simpa [filterTails, accepted] using
            induction cells (read + 1) write (by omega) fitsTail agreeTail
      | true =>
          have later := induction (store cells write (cells ⟨read, inside⟩))
            (read + 1) (write + 1) (by omega) fitsTail (by
              intro cell reached
              rw [store_other cells _ (by omega)]
              exact agreeTail cell reached)
          simp only [filterTails, accepted, if_true, List.length_cons]
          refine ⟨by rw [later.1]; omega, fun cell => ?_⟩
          rw [later.2 cell]
          by_cases atWrite : cell.val = write
          · rw [if_neg (by omega), if_pos (by omega),
              store_same cells _ atWrite, here]
            simp [atWrite]
          · rw [store_other cells _ atWrite]
            by_cases written : write + 1 ≤ cell.val ∧
                cell.val < write + 1 + (filterTails keepItem tail).length
            · rw [if_pos written, if_pos (by omega)]
              have shifted : cell.val - write = (cell.val - (write + 1)) + 1 := by
                omega
              rw [shifted, List.getElem?_cons_succ]
            · rw [if_neg written, if_neg (by omega)]

/-! ## Packed arrays -/

/-- `cells` holds exactly the elements of `items`, packed at the front. -/
structure Packs (cells : Fin size → Option α) (items : List α) : Prop where
  cell : ∀ cell : Fin size, cells cell = items[cell.val]?
  fits : items.length ≤ size

theorem packs_nil : Packs (fun _ : Fin size => (none : Option α)) [] :=
  ⟨fun _ => rfl, Nat.zero_le _⟩

theorem compact_packs {keep : (Fin size → Option α) → Fin size → Bool}
    {keepItem : α → List α → Bool} {cells : Fin size → Option α}
    {items : List α} (alike : KeepsLike keep keepItem items.length)
    (packed : Packs cells items) :
    Packs (compact keep none cells items.length).1
        (filterTails keepItem items) ∧
      (compact keep none cells items.length).2 =
        (filterTails keepItem items).length := by
  have loop := compactLoop_spec alike packed.fits items cells 0 0 (le_refl 0)
    (Nat.zero_add _) (fun cell _ => by simpa using packed.cell cell)
  simp only [Nat.zero_add, Nat.zero_le, true_and, Nat.sub_zero] at loop
  refine ⟨⟨fun cell => ?_, ?_⟩, loop.1⟩
  · simp only [compact, loop.1, loop.2 cell]
    by_cases kept : cell.val < (filterTails keepItem items).length
    · rw [if_neg (by omega), if_pos kept]
    · rw [List.getElem?_eq_none (Nat.le_of_not_lt kept)]
      by_cases live : cell.val < items.length
      · rw [if_pos ⟨Nat.le_of_not_lt kept, live⟩]
      · rw [if_neg (by omega), if_neg kept, packed.cell cell,
          List.getElem?_eq_none (Nat.le_of_not_lt live)]
  · exact (filterTails_sublist keepItem items).length_le.trans packed.fits

theorem Packs.map {cells : Fin size → Option α} {items : List α}
    (packed : Packs cells items) (change : α → β) :
    Packs (fun cell => (cells cell).map change) (items.map change) where
  cell := by
    intro cell
    rw [packed.cell, List.getElem?_map]
  fits := by
    rw [List.length_map]
    exact packed.fits

theorem Packs.replace {cells : Fin size → Option α} {before after : List α}
    {old : α} (packed : Packs cells (before ++ old :: after)) (new : α) :
    Packs (store cells before.length (some new))
      (before ++ new :: after) where
  cell := by
    intro cell
    by_cases here : cell.val = before.length
    · rw [store_same cells _ here, here]
      simp
    · rw [store_other cells _ here, packed.cell]
      rcases Nat.lt_or_gt_of_ne here with earlier | later
      · rw [List.getElem?_append_left earlier,
          List.getElem?_append_left earlier]
      · have shifted : cell.val - before.length =
            (cell.val - before.length - 1) + 1 := by omega
        rw [List.getElem?_append_right (Nat.le_of_lt later),
          List.getElem?_append_right (Nat.le_of_lt later), shifted,
          List.getElem?_cons_succ, List.getElem?_cons_succ]
  fits := by simpa using packed.fits

theorem Packs.push {cells : Fin size → Option α} {items : List α}
    (packed : Packs cells items) (room : items.length < size) (new : α) :
    Packs (store cells items.length (some new)) (items ++ [new]) where
  cell := by
    intro cell
    by_cases here : cell.val = items.length
    · rw [store_same cells _ here, here]
      simp
    · rw [store_other cells _ here, packed.cell]
      rcases Nat.lt_or_gt_of_ne here with earlier | later
      · rw [List.getElem?_append_left earlier]
      · rw [List.getElem?_eq_none (Nat.le_of_lt later),
          List.getElem?_eq_none (by simpa using Nat.succ_le_of_lt later)]
  fits := by
    rw [List.length_append]
    exact room

def elements (cells : Fin size → Option α) (live : Nat) : List α :=
  ((List.ofFn cells).take live).filterMap id

theorem Packs.elements_eq {cells : Fin size → Option α} {items : List α}
    (packed : Packs cells items) : elements cells items.length = items := by
  have front : (List.ofFn cells).take items.length = items.map some := by
    apply List.ext_getElem?
    intro index
    rw [List.getElem?_take, List.getElem?_map]
    by_cases inside : index < items.length
    · rw [if_pos inside,
        List.getElem?_ofFn, dif_pos (inside.trans_le packed.fits),
        packed.cell, List.getElem?_eq_getElem inside]
      rfl
    · rw [if_neg inside, List.getElem?_eq_none (Nat.le_of_not_lt inside)]
      rfl
  rw [elements, front, List.filterMap_map]
  simp

/-- Search the first `live` cells from the last one backwards. -/
def findLast (accept : α → Bool) (cells : Fin size → Option α) :
    Nat → Option (Fin size)
  | 0 => none
  | index + 1 =>
      if inside : index < size then
        if (cells ⟨index, inside⟩).any accept then some ⟨index, inside⟩
        else findLast accept cells index
      else findLast accept cells index

theorem Packs.findLast_cases {cells : Fin size → Option α} {items : List α}
    (packed : Packs cells items) (accept : α → Bool) : ∀ front back,
    items = front ++ back → (∀ item ∈ back, accept item = false) →
    (findLast accept cells front.length = none ∧
        ∀ item ∈ items, accept item = false) ∨
      ∃ before item after, items = before ++ item :: after ∧
        accept item = true ∧ (∀ later ∈ after, accept later = false) ∧
        (findLast accept cells front.length).map Fin.val =
          some before.length := by
  intro front
  induction front using List.reverseRecOn with
  | nil =>
      intro back split rejected
      exact .inl ⟨rfl, fun item member =>
        rejected item (by simpa [split] using member)⟩
  | append_singleton front item induction =>
      intro back split rejected
      have inside : front.length < size := by
        have fits := packed.fits
        rw [split] at fits
        simp only [List.length_append, List.length_cons] at fits
        omega
      have here : cells ⟨front.length, inside⟩ = some item := by
        rw [packed.cell, split]
        simp
      rw [List.length_append, List.length_singleton, findLast, dif_pos inside,
        here]
      cases accepted : accept item with
      | true =>
          exact .inr ⟨front, item, back, by simpa using split, accepted,
            rejected, by simp [accepted]⟩
      | false =>
          simp only [Option.any_some, accepted, Bool.false_eq_true, if_false]
          apply induction (item :: back) (by simpa using split)
          intro other member
          rcases List.mem_cons.mp member with rfl | later
          · exact accepted
          · exact rejected other later

end PasswordProfile.FixedArray
