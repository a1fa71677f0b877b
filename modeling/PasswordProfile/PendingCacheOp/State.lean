import PasswordProfile.AuthEvent.Ring

/-! # The staging area of a transaction

Cache changes wait in a fixed backend-local array until their transaction
commits. Every entry remembers the subtransaction it belongs to. The array is
packed: what each operation does to it is said once, on the list of its
entries.
-/

namespace PasswordProfile.PendingCacheOp

open AuthEvent FixedArray

abbrev SubTransactionId := Nat

inductive CacheDecision
  | setLock (expiresAt : TimestampTz)
  | clearLock
  deriving DecidableEq, Repr

inductive ExpiryDecision
  | none
  | set (mustChangeBy generation : TimestampTz) (graceRemaining : Int)
  | clear
  deriving DecidableEq, Repr

structure PendingEntry where
  username : EncodedUsername
  decision : Option CacheDecision
  expiry : ExpiryDecision
  subid : SubTransactionId
  deriving DecidableEq, Repr

structure PendingAck where
  token : ClaimToken
  subid : SubTransactionId
  deriving DecidableEq, Repr

abbrev maxPendingOps : Nat := 16

structure PendingState where
  entries : Fin maxPendingOps → Option PendingEntry
  len : Nat
  ack : Option PendingAck

/-- Whether an entry stands for this user at this level. -/
def PendingEntry.isFor (entry : PendingEntry) (username : EncodedUsername)
    (subid : SubTransactionId) : Bool :=
  entry.subid == subid && entry.username == username

def PendingEntry.reparent (mySubid parentSubid : SubTransactionId)
    (entry : PendingEntry) : PendingEntry :=
  if entry.subid = mySubid then { entry with subid := parentSubid } else entry

namespace PendingState

def new : PendingState where
  entries := fun _ => none
  len := 0
  ack := none

def live (pending : PendingState) : Nat :=
  if pending.len > maxPendingOps then maxPendingOps else pending.len

def isEmpty (pending : PendingState) : Bool :=
  pending.live == 0 && pending.ack.isNone

def reset (pending : PendingState) : PendingState :=
  { pending with
    entries := fun _ => none
    len := 0
    ack := none }

/-- Overwrite the latest entry of this user and level, or append a new one.
`false` is `StageCapacityExceeded`. -/
def stageEntry (pending : PendingState) (username : EncodedUsername)
    (decision : Option CacheDecision) (expiry : ExpiryDecision)
    (subid : SubTransactionId) : PendingState × Bool :=
  match findLast (fun entry => entry.isFor username subid) pending.entries
      pending.live with
  | some index =>
      ({ pending with
          entries := store pending.entries index.val
            ((pending.entries index).map fun entry =>
              { entry with decision, expiry }) },
        true)
  | none =>
      if pending.live ≥ maxPendingOps then (pending, false)
      else
        ({ pending with
            entries := store pending.entries pending.live
              (some { username, decision, expiry, subid })
            len := pending.live + 1 },
          true)

def stageAck (pending : PendingState) (token : ClaimToken)
    (subid : SubTransactionId) : PendingState :=
  { pending with ack := some ⟨token, subid⟩ }

def keepOtherLevels (mySubid : SubTransactionId)
    (cells : Fin maxPendingOps → Option PendingEntry)
    (read : Fin maxPendingOps) : Bool :=
  (cells read).any fun entry => entry.subid != mySubid

def onSubAbort (pending : PendingState) (mySubid : SubTransactionId) :
    PendingState :=
  let (entries, write) :=
    compact (keepOtherLevels mySubid) none pending.entries pending.live
  { entries
    len := write
    ack := pending.ack.filter fun ack => ack.subid != mySubid }

def superseded (live : Nat) (cells : Fin maxPendingOps → Option PendingEntry)
    (read : Fin maxPendingOps) (entry : PendingEntry) : Bool :=
  (List.finRange maxPendingOps).any fun later =>
    decide (read.val < later.val ∧ later.val < live) &&
      (cells later).any fun other => other.isFor entry.username entry.subid

def keepUnsuperseded (live : Nat)
    (cells : Fin maxPendingOps → Option PendingEntry)
    (read : Fin maxPendingOps) : Bool :=
  (cells read).any fun entry => !superseded live cells read entry

def compactDuplicates (pending : PendingState) : PendingState :=
  let (entries, write) :=
    compact (keepUnsuperseded pending.live) none pending.entries pending.live
  { pending with entries, len := write }

def onSubCommit (pending : PendingState)
    (mySubid parentSubid : SubTransactionId) : PendingState :=
  let adopted : PendingState :=
    { pending with
      ack := pending.ack.map fun ack =>
        if ack.subid = mySubid then { ack with subid := parentSubid } else ack
      entries := fun cell =>
        if cell.val < pending.live then
          (pending.entries cell).map
            (PendingEntry.reparent mySubid parentSubid)
        else pending.entries cell }
  adopted.compactDuplicates

/-- The staged entries, in the order in which `apply_all` visits them. -/
def entryList (pending : PendingState) : List PendingEntry :=
  elements pending.entries pending.live

/-! ## The packed array as a list -/

structure Holds (pending : PendingState) (items : List PendingEntry) :
    Prop where
  packed : Packs pending.entries items
  len : pending.len = items.length

theorem holds_new : Holds new [] := ⟨packs_nil, rfl⟩

namespace Holds

variable {pending : PendingState} {items : List PendingEntry}

theorem live_eq (holds : Holds pending items) :
    pending.live = items.length := by
  have fits := holds.packed.fits
  rw [live, holds.len, if_neg (Nat.not_lt_of_le fits)]

theorem entryList_eq (holds : Holds pending items) :
    pending.entryList = items := by
  rw [entryList, holds.live_eq]
  exact holds.packed.elements_eq

end Holds

/-- Everything `stageEntry` can do. -/
theorem stageEntry_cases {pending : PendingState} {items : List PendingEntry}
    (holds : Holds pending items) (username : EncodedUsername)
    (decision : Option CacheDecision) (expiry : ExpiryDecision)
    (subid : SubTransactionId) :
    (∃ before old after, items = before ++ old :: after ∧
        old.isFor username subid = true ∧
        (pending.stageEntry username decision expiry subid).2 = true ∧
        Holds (pending.stageEntry username decision expiry subid).1
          (before ++ ⟨old.username, decision, expiry, old.subid⟩ :: after)) ∨
      ((∀ entry ∈ items, entry.isFor username subid = false) ∧
        ((items.length < maxPendingOps ∧
            (pending.stageEntry username decision expiry subid).2 = true ∧
            Holds (pending.stageEntry username decision expiry subid).1
              (items ++ [⟨username, decision, expiry, subid⟩])) ∨
          (items.length = maxPendingOps ∧
            pending.stageEntry username decision expiry subid =
              (pending, false)))) := by
  have live := holds.live_eq
  have fits := holds.packed.fits
  rcases holds.packed.findLast_cases
      (fun entry => entry.isFor username subid) items [] (by simp) (by simp) with
    ⟨missing, unmatched⟩ | ⟨before, old, after, split, matched, _, found⟩
  · refine .inr ⟨unmatched, ?_⟩
    rw [stageEntry, live, missing]
    by_cases full : items.length ≥ maxPendingOps
    · exact .inr ⟨Nat.le_antisymm fits full, by simp only [if_pos full]⟩
    · have room := Nat.lt_of_not_le full
      refine .inl ⟨room, ?_⟩
      simp only [if_neg full]
      exact ⟨trivial, holds.packed.push room _, by simp⟩
  · refine .inl ⟨before, old, after, split, matched, ?_⟩
    rw [stageEntry, live]
    cases position : findLast (fun entry => entry.isFor username subid)
        pending.entries items.length with
    | none =>
        rw [position] at found
        cases found
    | some index =>
        rw [position] at found
        have place : index.val = before.length := by simpa using found
        have here : pending.entries index = some old := by
          rw [holds.packed.cell, place, split]
          simp
        rw [split] at holds
        simp only [here, place, Option.map_some]
        exact ⟨trivial, holds.packed.replace _, by simpa using holds.len⟩

theorem stageEntry_ack (pending : PendingState) (username : EncodedUsername)
    (decision : Option CacheDecision) (expiry : ExpiryDecision)
    (subid : SubTransactionId) :
    (pending.stageEntry username decision expiry subid).1.ack =
      pending.ack := by
  unfold stageEntry
  split
  · rfl
  · split <;> rfl

theorem filterTails_eq_filter (keep : PendingEntry → Bool)
    (items : List PendingEntry) :
    filterTails (fun entry _ => keep entry) items = items.filter keep := by
  induction items with
  | nil => rfl
  | cons head tail induction =>
      rw [filterTails, List.filter_cons, induction]

theorem holds_onSubAbort {pending : PendingState} {items : List PendingEntry}
    (holds : Holds pending items) (mySubid : SubTransactionId) :
    Holds (pending.onSubAbort mySubid)
      (items.filter fun entry => entry.subid != mySubid) := by
  have alike : KeepsLike (keepOtherLevels mySubid)
      (fun entry _ => entry.subid != mySubid) items.length := by
    intro cells read head tail _ agree
    rw [keepOtherLevels, agree read (Nat.le_refl _)]
    simp
  have compacted := compact_packs alike holds.packed
  rw [filterTails_eq_filter] at compacted
  simp only [onSubAbort, holds.live_eq]
  exact ⟨compacted.1, compacted.2⟩

def isLatest (entry : PendingEntry) (later : List PendingEntry) : Bool :=
  !later.any fun other => other.isFor entry.username entry.subid

theorem holds_compactDuplicates {pending : PendingState}
    {items : List PendingEntry} (holds : Holds pending items) :
    Holds pending.compactDuplicates (filterTails isLatest items) := by
  have alike : KeepsLike (keepUnsuperseded items.length) isLatest
      items.length := by
    intro cells read head tail total agree
    rw [List.length_cons] at total
    have fits := holds.packed.fits
    have front : cells read = some head := by
      rw [agree read (Nat.le_refl _)]
      simp
    have later : ∀ cell : Fin maxPendingOps, read.val < cell.val →
        cells cell = tail[cell.val - (read.val + 1)]? := by
      intro cell behind
      have shifted : cell.val - read.val =
          (cell.val - (read.val + 1)) + 1 := by omega
      rw [agree cell (Nat.le_of_lt behind), shifted, List.getElem?_cons_succ]
    rw [keepUnsuperseded, front, Option.any_some, superseded, isLatest]
    congr 1
    rw [Bool.eq_iff_iff, List.any_eq_true, List.any_eq_true]
    constructor
    · intro given
      rcases given with ⟨cell, _, found⟩
      simp only [Bool.and_eq_true, decide_eq_true_eq] at found
      rw [later cell found.1.1] at found
      cases here : tail[cell.val - (read.val + 1)]? with
      | none =>
          rw [here] at found
          cases found.2
      | some other =>
          rw [here, Option.any_some] at found
          exact ⟨other, List.mem_of_getElem? here, found.2⟩
    · intro given
      rcases given with ⟨other, member, same⟩
      rcases List.getElem?_of_mem member with ⟨offset, here⟩
      have bound := (List.getElem?_eq_some_iff.mp here).1
      refine ⟨⟨read.val + 1 + offset, by omega⟩, List.mem_finRange _, ?_⟩
      have ahead := later ⟨read.val + 1 + offset, by omega⟩
        (by simp only; omega)
      simp only [Nat.add_sub_cancel_left, here] at ahead
      rw [ahead]
      simp only [Option.any_some, same, Bool.and_true, decide_eq_true_eq]
      omega
  have compacted := compact_packs alike holds.packed
  simp only [compactDuplicates, holds.live_eq]
  exact ⟨compacted.1, compacted.2⟩

theorem holds_onSubCommit {pending : PendingState} {items : List PendingEntry}
    (holds : Holds pending items) (mySubid parentSubid : SubTransactionId) :
    Holds (pending.onSubCommit mySubid parentSubid)
      (filterTails isLatest
        (items.map (PendingEntry.reparent mySubid parentSubid))) := by
  rw [onSubCommit]
  apply holds_compactDuplicates
  refine ⟨?_, by rw [List.length_map]; exact holds.len⟩
  have adopted : (fun cell : Fin maxPendingOps =>
      if cell.val < pending.live then
        (pending.entries cell).map
          (PendingEntry.reparent mySubid parentSubid)
      else pending.entries cell) =
      fun cell => (pending.entries cell).map
        (PendingEntry.reparent mySubid parentSubid) := by
    funext cell
    by_cases inside : cell.val < pending.live
    · rw [if_pos inside]
    · rw [if_neg inside]
      rw [holds.live_eq] at inside
      rw [holds.packed.cell, List.getElem?_eq_none (Nat.le_of_not_lt inside)]
      rfl
  simp only [adopted]
  exact holds.packed.map _

theorem reset_eq_new (pending : PendingState) : pending.reset = new := rfl

end PendingState

end PasswordProfile.PendingCacheOp
