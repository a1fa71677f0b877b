import Mathlib.Data.List.Basic

/-! # Exact reads through a buffer

A buffered reader takes what an underlying source delivers, in pieces of any
size. Reading an exact number of elements copies them as they arrive; when the
source fails in between, what was copied is gone from the reader.
-/

namespace PasswordProfile.BufferedReader

/-- What one read of the source does: it fails, or delivers at most the given
number of elements. -/
inductive ReadOutcome
  | failed
  | delivered (count : Nat)
  deriving DecidableEq, Repr

/-- How many elements arrive when `left` are left in the source. -/
def ReadOutcome.arrived (capacity left : Nat) : ReadOutcome → Nat
  | .failed => 0
  | .delivered count => min (min count capacity) left

theorem ReadOutcome.arrived_le (capacity left : Nat)
    (outcome : ReadOutcome) : outcome.arrived capacity left ≤ left := by
  cases outcome with
  | failed => exact Nat.zero_le left
  | delivered count => exact Nat.min_le_right _ _

structure BufReader (α : Type u) where
  buffered : List α
  unread : List α
  deriving DecidableEq

namespace BufReader

variable {α : Type u}

def rest (reader : BufReader α) : List α := reader.buffered ++ reader.unread

/-- Fill an empty buffer. A read that brings nothing ends the copying, whether
it failed or the source is at its end. -/
def fillBuf (capacity : Nat) (reader : BufReader α) (outcome : ReadOutcome) :
    Option (BufReader α) :=
  let arrived := outcome.arrived capacity reader.unread.length
  if arrived = 0 then none
  else some ⟨reader.unread.take arrived, reader.unread.drop arrived⟩

/-- Copy from the buffer until `wanted` elements are there or it is empty. -/
def copyBuffered (wanted : Nat) (copied : List α) (reader : BufReader α) :
    BufReader α × List α :=
  let missing := wanted - copied.length
  ({ reader with buffered := reader.buffered.drop missing },
    copied ++ reader.buffered.take missing)

/-- The loop of `read_exact`: one outcome for each read of the source, and a
source that has ended behind them. -/
def readLoop (capacity wanted : Nat) :
    List ReadOutcome → List α → BufReader α → BufReader α × Option (List α)
  | [], copied, reader =>
      let (drained, copied) := reader.copyBuffered wanted copied
      if copied.length = wanted then (drained, some copied)
      else (drained, none)
  | outcome :: later, copied, reader =>
      let (drained, copied) := reader.copyBuffered wanted copied
      if copied.length = wanted then (drained, some copied)
      else
        match drained.fillBuf capacity outcome with
        | none => (drained, none)
        | some filled => readLoop capacity wanted later copied filled

/-- `read_exact`. Reads that the outcomes do not mention deliver all that fits
into the buffer. -/
def readExact (capacity wanted : Nat) (outcomes : List ReadOutcome)
    (reader : BufReader α) : BufReader α × Option (List α) :=
  readLoop capacity wanted (outcomes ++ [.delivered capacity]) [] reader

/-- With `available` elements at hand and `left` more in the source, a read
brings nothing before the rest of the wanted elements is there, but not before
the first. -/
def Tears (capacity wanted : Nat) : List ReadOutcome → Nat → Nat → Prop
  | [], available, _ => available < wanted ∧ available ≠ 0
  | outcome :: later, available, left =>
      available < wanted ∧
        if outcome.arrived capacity left = 0 then available ≠ 0
        else Tears capacity wanted later
          (available + outcome.arrived capacity left)
          (left - outcome.arrived capacity left)

instance decidableTears (capacity wanted : Nat) :
    ∀ outcomes available left,
      Decidable (Tears capacity wanted outcomes available left)
  | [], _, _ => inferInstanceAs (Decidable (_ ∧ _))
  | _ :: later, _, _ =>
      have := decidableTears capacity wanted later
      inferInstanceAs (Decidable (_ ∧ _))

/-! ## One copy and one read -/

section

variable {capacity wanted : Nat}

theorem copyBuffered_rest (copied : List α) (reader : BufReader α) :
    (reader.copyBuffered wanted copied).2 ++
        (reader.copyBuffered wanted copied).1.rest =
      copied ++ reader.rest := by
  simp only [copyBuffered, rest, List.append_assoc]
  rw [← List.append_assoc (reader.buffered.take _), List.take_append_drop]

theorem copyBuffered_length {copied : List α} (fits : copied.length ≤ wanted)
    (reader : BufReader α) :
    (reader.copyBuffered wanted copied).2.length =
      min wanted (copied.length + reader.buffered.length) := by
  simp only [copyBuffered, List.length_append, List.length_take]
  omega

theorem copyBuffered_short {copied : List α} (fits : copied.length ≤ wanted)
    {reader : BufReader α}
    (short : (reader.copyBuffered wanted copied).2.length ≠ wanted) :
    reader.copyBuffered wanted copied =
        (⟨[], reader.unread⟩, copied ++ reader.buffered) ∧
      copied.length + reader.buffered.length < wanted := by
  rw [copyBuffered_length fits] at short
  have missing : copied.length + reader.buffered.length < wanted := by omega
  have whole : reader.buffered.length ≤ wanted - copied.length := by omega
  simp only [copyBuffered, List.drop_eq_nil_of_le whole,
    List.take_of_length_le whole]
  exact ⟨trivial, missing⟩

theorem readLoop_cons_short {outcome : ReadOutcome}
    {later : List ReadOutcome} {copied : List α}
    (fits : copied.length ≤ wanted) {reader : BufReader α}
    (short : (reader.copyBuffered wanted copied).2.length ≠ wanted) :
    readLoop capacity wanted (outcome :: later) copied reader =
      if outcome.arrived capacity reader.unread.length = 0 then
        (⟨[], reader.unread⟩, none)
      else readLoop capacity wanted later (copied ++ reader.buffered)
        ⟨reader.unread.take (outcome.arrived capacity reader.unread.length),
          reader.unread.drop
            (outcome.arrived capacity reader.unread.length)⟩ := by
  rw [readLoop]
  simp only [if_neg short]
  rw [(copyBuffered_short fits short).1, fillBuf]
  simp only
  split
  · next nothing =>
      split at nothing
      · next none => rw [if_pos none]
      · cases nothing
  · next filled some =>
      split at some
      · cases some
      · next arrived =>
          cases some
          rw [if_neg arrived]

/-! ## What an exact read does -/

theorem readLoop_some {outcomes : List ReadOutcome} :
    ∀ {copied bytes : List α} {reader next : BufReader α},
    copied.length ≤ wanted →
    readLoop capacity wanted outcomes copied reader = (next, some bytes) →
    bytes.length = wanted ∧ bytes ++ next.rest = copied ++ reader.rest := by
  induction outcomes with
  | nil =>
      intro copied bytes reader next fits read
      rw [readLoop] at read
      simp only at read
      split at read
      · next full =>
          cases read
          exact ⟨full, copyBuffered_rest copied reader⟩
      · cases read
  | cons outcome later induction =>
      intro copied bytes reader next fits read
      by_cases full : (reader.copyBuffered wanted copied).2.length = wanted
      · rw [readLoop] at read
        simp only [if_pos full] at read
        cases read
        exact ⟨full, copyBuffered_rest copied reader⟩
      · have missing := (copyBuffered_short fits full).2
        rw [readLoop_cons_short fits full] at read
        split at read
        · cases read
        · have within : (copied ++ reader.buffered).length ≤ wanted := by
            rw [List.length_append]
            omega
          rcases induction within read with ⟨length, same⟩
          refine ⟨length, ?_⟩
          rw [same]
          simp only [rest, List.take_append_drop, List.append_assoc]

theorem untouched {copied : List α} {reader : BufReader α}
    (nothing : copied.length + reader.buffered.length = 0) :
    copied = [] ∧ reader.buffered = [] ∧
      (⟨[], reader.unread⟩ : BufReader α) = reader := by
  have noCopy : copied = [] := List.length_eq_zero_iff.mp (by omega)
  have noBuffer : reader.buffered = [] :=
    List.length_eq_zero_iff.mp (by omega)
  rcases reader with ⟨buffered, unread⟩
  cases noBuffer
  exact ⟨noCopy, rfl, rfl⟩

theorem readLoop_none {outcomes : List ReadOutcome} :
    ∀ {copied : List α} {reader next : BufReader α},
    copied.length ≤ wanted →
    ¬Tears capacity wanted outcomes (copied.length + reader.buffered.length)
      reader.unread.length →
    readLoop capacity wanted outcomes copied reader = (next, none) →
    copied = [] ∧ reader.buffered = [] ∧ next = reader := by
  induction outcomes with
  | nil =>
      intro copied reader next fits whole read
      rw [readLoop] at read
      simp only at read
      split at read
      · cases read
      · next short =>
          rcases copyBuffered_short fits short with ⟨drained, missing⟩
          rw [drained] at read
          cases read
          simp only [Tears, not_and, not_not] at whole
          have nothing := whole missing
          exact untouched (by omega)
  | cons outcome later induction =>
      intro copied reader next fits whole read
      by_cases full : (reader.copyBuffered wanted copied).2.length = wanted
      · rw [readLoop] at read
        simp only [if_pos full] at read
        cases read
      · have missing := (copyBuffered_short fits full).2
        rw [readLoop_cons_short fits full] at read
        simp only [Tears, not_and] at whole
        have untorn := whole missing
        split at read
        · next nothing =>
            rw [if_pos nothing] at untorn
            cases read
            exact untouched (by omega)
        · next arrived =>
            -- Something has arrived, so a later failure would tear.
            rw [if_neg arrived] at untorn
            have bound := outcome.arrived_le capacity reader.unread.length
            have within : (copied ++ reader.buffered).length ≤ wanted := by
              rw [List.length_append]
              omega
            have same := induction within
              (by
                simpa [List.length_append, Nat.min_eq_left bound] using untorn)
              read
            have empty := congrArg List.length same.2.1
            rw [List.length_take, Nat.min_eq_left bound] at empty
            exact absurd empty arrived

theorem length_rest (reader : BufReader α) : reader.rest.length =
    reader.buffered.length + reader.unread.length := List.length_append

theorem readLoop_tears {outcomes : List ReadOutcome} :
    ∀ {copied : List α} {reader : BufReader α}, copied.length ≤ wanted →
    Tears capacity wanted outcomes (copied.length + reader.buffered.length)
      reader.unread.length →
    ∃ next, readLoop capacity wanted outcomes copied reader = (next, none) ∧
      next.rest.length < copied.length + reader.rest.length := by
  induction outcomes with
  | nil =>
      intro copied reader fits torn
      rw [Tears] at torn
      have short : (reader.copyBuffered wanted copied).2.length ≠ wanted := by
        rw [copyBuffered_length fits]
        omega
      refine ⟨⟨[], reader.unread⟩, ?_, ?_⟩
      · rw [readLoop]
        simp only [if_neg short]
        rw [(copyBuffered_short fits short).1]
      · simp only [length_rest, List.length_nil]
        omega
  | cons outcome later induction =>
      intro copied reader fits torn
      rw [Tears] at torn
      have short : (reader.copyBuffered wanted copied).2.length ≠ wanted := by
        rw [copyBuffered_length fits]
        omega
      have bound := outcome.arrived_le capacity reader.unread.length
      rw [readLoop_cons_short fits short]
      by_cases nothing :
          outcome.arrived capacity reader.unread.length = 0
      · rw [if_pos nothing] at torn ⊢
        refine ⟨⟨[], reader.unread⟩, rfl, ?_⟩
        simp only [length_rest, List.length_nil]
        omega
      · rw [if_neg nothing] at torn ⊢
        have within : (copied ++ reader.buffered).length ≤ wanted := by
          rw [List.length_append]
          omega
        have filled := @induction (copied ++ reader.buffered)
          ⟨reader.unread.take (outcome.arrived capacity reader.unread.length),
            reader.unread.drop
              (outcome.arrived capacity reader.unread.length)⟩ within
          (by simpa [List.length_append, Nat.min_eq_left bound] using torn.2)
        rcases filled with ⟨next, failed, lost⟩
        refine ⟨next, failed, ?_⟩
        simp only [length_rest, List.length_append, List.length_take,
          List.length_drop] at lost ⊢
        omega

theorem readLoop_delivers {outcomes : List ReadOutcome}
    (wide : wanted ≤ capacity) : ∀ {copied : List α} {reader : BufReader α},
    copied.length ≤ wanted →
    (∀ outcome ∈ outcomes, outcome.arrived capacity 1 ≠ 0) →
    wanted ≤ copied.length + reader.rest.length →
    ∃ next bytes, readLoop capacity wanted
      (outcomes ++ [.delivered capacity]) copied reader =
        (next, some bytes) := by
  induction outcomes with
  | nil =>
      intro copied reader fits _ enough
      rw [length_rest] at enough
      rw [List.nil_append]
      by_cases full : (reader.copyBuffered wanted copied).2.length = wanted
      · rw [readLoop]
        simp only [if_pos full]
        exact ⟨_, _, rfl⟩
      · have missing := (copyBuffered_short fits full).2
        have arrived : ReadOutcome.arrived capacity reader.unread.length
            (.delivered capacity) = min capacity reader.unread.length := by
          rw [ReadOutcome.arrived, Nat.min_self]
        have filled : (copyBuffered wanted (copied ++ reader.buffered)
            ⟨reader.unread.take (min capacity reader.unread.length),
              reader.unread.drop
                (min capacity reader.unread.length)⟩).2.length = wanted := by
          rw [copyBuffered_length (by rw [List.length_append]; omega)]
          simp only [List.length_append, List.length_take]
          omega
        rw [readLoop_cons_short fits full, arrived, if_neg (by omega),
          readLoop]
        simp only [if_pos filled]
        exact ⟨_, _, rfl⟩
  | cons outcome later induction =>
      intro copied reader fits delivers enough
      rw [length_rest] at enough
      rw [List.cons_append]
      by_cases full : (reader.copyBuffered wanted copied).2.length = wanted
      · rw [readLoop]
        simp only [if_pos full]
        exact ⟨_, _, rfl⟩
      · have missing := (copyBuffered_short fits full).2
        have some := delivers outcome List.mem_cons_self
        have arrived :
            outcome.arrived capacity reader.unread.length ≠ 0 := by
          cases outcome with
          | failed => exact some
          | delivered count =>
              simp only [ReadOutcome.arrived] at some ⊢
              omega
        have bound := outcome.arrived_le capacity reader.unread.length
        rw [readLoop_cons_short fits full, if_neg arrived]
        apply induction
        · rw [List.length_append]
          omega
        · intro other member
          exact delivers other (List.mem_cons_of_mem _ member)
        · simp only [length_rest, List.length_append, List.length_take,
            List.length_drop]
          omega

end

/-! ## The exact read as a whole -/

section

variable {capacity wanted : Nat} {outcomes : List ReadOutcome}
  {reader next : BufReader α}

def TearsAt (capacity wanted : Nat) (outcomes : List ReadOutcome)
    (reader : BufReader α) : Prop :=
  Tears capacity wanted (outcomes ++ [.delivered capacity])
    reader.buffered.length reader.unread.length

instance (capacity wanted : Nat) (outcomes : List ReadOutcome)
    (reader : BufReader α) :
    Decidable (TearsAt capacity wanted outcomes reader) :=
  decidableTears _ _ _ _ _

theorem readExact_some {bytes : List α}
    (read : readExact capacity wanted outcomes reader = (next, some bytes)) :
    bytes.length = wanted ∧ reader.rest = bytes ++ next.rest := by
  rcases readLoop_some (Nat.zero_le wanted) read with ⟨length, same⟩
  exact ⟨length, same.symm⟩

theorem readExact_none (whole : ¬TearsAt capacity wanted outcomes reader)
    (read : readExact capacity wanted outcomes reader = (next, none)) :
    next = reader := by
  apply (readLoop_none (Nat.zero_le wanted) _ read).2.2
  rw [List.length_nil, Nat.zero_add]
  exact whole

theorem readExact_tears (torn : TearsAt capacity wanted outcomes reader) :
    ∃ next, readExact capacity wanted outcomes reader = (next, none) ∧
      next.rest.length < reader.rest.length := by
  have started : Tears capacity wanted (outcomes ++ [.delivered capacity])
      (([] : List α).length + reader.buffered.length)
      reader.unread.length := by
    rw [List.length_nil, Nat.zero_add]
    exact torn
  have lost := readLoop_tears (Nat.zero_le wanted) started
  rw [List.length_nil, Nat.zero_add] at lost
  exact lost

theorem readExact_delivers (wide : wanted ≤ capacity)
    (delivers : ∀ outcome ∈ outcomes, outcome.arrived capacity 1 ≠ 0)
    (enough : wanted ≤ reader.rest.length) :
    ∃ next bytes, readExact capacity wanted outcomes reader =
      (next, some bytes) := by
  have fits : ([] : List α).length ≤ wanted := Nat.zero_le wanted
  apply readLoop_delivers wide fits delivers
  rw [List.length_nil, Nat.zero_add]
  exact enough

end

end BufReader

end PasswordProfile.BufferedReader
