import PasswordProfile.Foundation.LockedSections
import PasswordProfile.Foundation.SlotTable

/-! # Tables behind a lock

The loops that a section makes over the cells of a table, one access at a time,
and what they do while nobody else runs.
-/

namespace PasswordProfile.LockedSections

open Interaction SlotTable

/-! ## Parts that take no lock -/

section Within

variable {layout : Layout} [DecidableEq layout.Lock] {Result Final : Type}
  {holding : Holding layout}

def Within (holding : Holding layout) (part : Section layout Result) : Prop :=
  (discipline layout).Supervises part holding fun _ final => final = holding

theorem within_pure (result : Result) :
    Within holding (pure result : Section layout Result) := rfl

theorem Within.bind {first : Section layout Result}
    {next : Result → Section layout Final} (within : Within holding first)
    (continues : ∀ result, Within holding (next result)) :
    Within holding (first >>= next) := by
  apply Monitor.Supervises.bind within
  intro result final same
  rw [same]
  exact continues result

theorem Within.held {part : Section layout Result}
    (within : Within holding part) :
    (discipline layout).Supervises part holding fun _ final =>
      final.held = holding.held :=
  within.mono fun _ _ same => by rw [same]

theorem within_read {cell : layout.Cell} (holds : holding.Holds cell) :
    Within holding (read cell) :=
  ⟨holds, fun _ => rfl⟩

theorem within_write {cell : layout.Cell} (owns : holding.Owns cell)
    (value : layout.Value cell) : Within holding (write cell value) :=
  ⟨owns, fun _ => rfl⟩

theorem supervises_guarded {lock : layout.Lock} {mode : Mode}
    {body : Section layout Result} (grows : holding.released = false)
    (ranked : ∀ other, holding.held other ≠ none →
      layout.rank other < layout.rank lock)
    (inside : (discipline layout).Supervises body
      (holding.after (.acquire lock mode)) fun _ final =>
        final.held = (holding.after (.acquire lock mode)).held) :
    (discipline layout).Supervises (guarded lock mode body) holding
      fun _ final => final.held = holding.held := by
  have fresh : holding.held lock = none := by
    by_contra held
    exact absurd (ranked lock held) (lt_irrefl _)
  refine ⟨⟨grows, ranked⟩, fun _ => ?_⟩
  apply Monitor.Supervises.bind inside
  intro result final same
  refine ⟨?_, fun _ => ?_⟩
  · change final.held lock ≠ none
    rw [same]
    simp
  · change Function.update final.held lock none = holding.held
    rw [same, Holding.held_acquire, Function.update_idem, ← fresh,
      Function.update_eq_self]

theorem keeps_pure (result : Result) :
    Keeps (pure result : Section layout Result) .start := ⟨fun _ => rfl⟩

theorem keeps_guarded {lock : layout.Lock} {mode : Mode}
    {body : Section layout Result}
    (within : Within (Holding.start.after (.acquire lock mode)) body) :
    Keeps (guarded lock mode body) .start := by
  have supervised : (discipline layout).Supervises (guarded lock mode body)
      Holding.start fun _ final => final.held = Holding.start.held := by
    apply supervises_guarded rfl (fun _ held => absurd rfl held)
    exact within.held
  constructor
  apply supervised.mono
  intro _ final same lock
  rw [same]
  rfl

theorem Keeps.map {part : Section layout Result}
    (keeps : Keeps part holding) (result : Result → Final) :
    Keeps (do let value ← part; return result value) holding := by
  constructor
  apply keeps.supervised.bind
  intro _ final empty
  exact empty

end Within

/-! ## Tables -/

structure Table (layout : Layout) [DecidableEq layout.Lock]
    [DecidableEq layout.Cell] (size : Nat) (Entry : Type) where
  lock : layout.Lock
  read : Fin size → Section layout Entry
  write : Fin size → Entry → Section layout Unit
  get : Memory layout → Fin size → Entry
  put : Memory layout → (Fin size → Entry) → Memory layout
  put_get : ∀ memory, put memory (get memory) = memory
  get_put : ∀ memory entries, get (put memory entries) = entries
  put_put : ∀ memory earlier later,
    put (put memory earlier) later = put memory later
  alone_read : ∀ slot memory,
    alone (read slot) memory = (memory, get memory slot)
  alone_write : ∀ slot entry memory, alone (write slot entry) memory =
    (put memory (Function.update (get memory) slot entry), ())
  within_read : ∀ {holding : Holding layout} slot,
    holding.held lock ≠ none → Within holding (read slot)
  within_write : ∀ {holding : Holding layout} slot entry,
    holding.held lock = some .exclusive → Within holding (write slot entry)

namespace Table

variable {layout : Layout} [DecidableEq layout.Lock]
  [DecidableEq layout.Cell] {size : Nat} {Entry : Type}
  (table : Table layout size Entry) (accepts : Entry → Bool)
  (memory : Memory layout)

def search : List (Fin size) → Section layout (Option (Fin size × Entry))
  | [] => pure none
  | slot :: rest => do
      let entry ← table.read slot
      if accepts entry then pure (some (slot, entry)) else search rest

def find : Section layout (Option (Fin size × Entry)) :=
  table.search accepts (List.finRange size)

def blankSlots (blank : Entry) : List (Fin size) → Section layout Unit
  | [] => pure ()
  | slot :: rest => do
      table.write slot blank
      blankSlots blank rest

def blankAll (blank : Entry) : Section layout Unit :=
  table.blankSlots blank (List.finRange size)

def fill : List Entry → Nat → Section layout Nat
  | [], slot => pure slot
  | item :: rest, slot =>
      if inside : slot < size then
        if accepts item then do
          table.write ⟨slot, inside⟩ item
          fill rest (slot + 1)
        else fill rest slot
      else pure slot

/-! What the loops do alone. -/

theorem alone_search (slots : List (Fin size)) :
    alone (table.search accepts slots) memory = (memory,
      (slots.find? fun slot => accepts (table.get memory slot)).map
        fun slot => (slot, table.get memory slot)) := by
  induction slots with
  | nil => rfl
  | cons slot rest induction =>
      rw [search, alone_bind, table.alone_read, List.find?_cons]
      cases accepts (table.get memory slot) with
      | true => rfl
      | false => exact induction

theorem alone_find :
    alone (table.find accepts) memory = (memory,
      (Fin.find? fun slot => accepts (table.get memory slot)).map
        fun slot => (slot, table.get memory slot)) := by
  rw [find, alone_search, Fin.find?_eq_find?_finRange]

theorem alone_blankSlots (blank : Entry) (slots : List (Fin size)) :
    alone (table.blankSlots blank slots) memory =
      (table.put memory fun slot =>
        if slot ∈ slots then blank else table.get memory slot, ()) := by
  induction slots generalizing memory with
  | nil =>
      rw [blankSlots, alone_pure]
      simp [table.put_get]
  | cons slot rest induction =>
      rw [blankSlots, alone_bind, table.alone_write, induction, table.put_put,
        table.get_put]
      congr 2
      funext other
      by_cases same : other = slot
      · subst same
        simp
      · simp [same]

theorem alone_blankAll (blank : Entry) :
    alone (table.blankAll blank) memory =
      (table.put memory fun _ => blank, ()) := by
  rw [blankAll, alone_blankSlots]
  simp

theorem alone_fill (items : List Entry) (slot : Nat) :
    alone (table.fill accepts items slot) memory =
      (table.put memory (fillFrom accepts items slot (table.get memory)).1,
        (fillFrom accepts items slot (table.get memory)).2) := by
  induction items generalizing slot memory with
  | nil =>
      rw [fill, fillFrom, table.put_get]
      rfl
  | cons item rest induction =>
      rw [fill, fillFrom]
      split
      · next inside =>
        split
        · rw [alone_bind, table.alone_write, induction, table.get_put,
            table.put_put]
        · exact induction memory slot
      · rw [table.put_get]
        rfl

/-! They only access the table. -/

variable {holding : Holding layout}

theorem within_search (held : holding.held table.lock ≠ none)
    (slots : List (Fin size)) :
    Within holding (table.search accepts slots) := by
  induction slots with
  | nil => exact within_pure none
  | cons slot rest induction =>
      apply (table.within_read slot held).bind
      intro entry
      split
      · exact within_pure _
      · exact induction

theorem within_find (held : holding.held table.lock ≠ none) :
    Within holding (table.find accepts) :=
  table.within_search accepts held _

theorem within_blankAll (held : holding.held table.lock = some .exclusive)
    (blank : Entry) : Within holding (table.blankAll blank) := by
  rw [blankAll]
  induction List.finRange size with
  | nil => exact within_pure ()
  | cons slot rest induction =>
      exact (table.within_write slot blank held).bind fun _ => induction

theorem within_fill (held : holding.held table.lock = some .exclusive)
    (items : List Entry) (slot : Nat) :
    Within holding (table.fill accepts items slot) := by
  induction items generalizing slot with
  | nil => exact within_pure slot
  | cons item rest induction =>
      rw [fill]
      split
      · split
        · exact (table.within_write _ item held).bind fun _ =>
            induction (slot + 1)
        · exact induction slot
      · exact within_pure slot

end Table

end PasswordProfile.LockedSections
