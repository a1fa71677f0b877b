import PasswordProfile.AuthEvent.Ring

/-! # The ring as a queue

What each ring operation does to the queue of unacknowledged events, read
from `tail` up to `head`. Later proofs cite these facts and never unfold an
operation again.
-/

namespace PasswordProfile.AuthEvent.AuthEventRing

open FixedArray

theorem advance_lt (index : Nat) : advance index < ringSlots :=
  Nat.mod_lt _ (by decide : 0 < ringSlots)

theorem advance_ne {index : Nat} (inRange : index < ringSlots) :
    advance index ≠ index := by
  have several : 1 < ringSlots := by decide
  rw [advance, next_eq inRange]
  split <;> omega

def contents (ring : AuthEventRing) : List SharedAuthEvent :=
  window ring.events ring.tail ring.depth

/-- The state of a ring that only its own operations have touched. -/
structure WellFormed (ring : AuthEventRing) : Prop where
  headInRange : ring.head < ringSlots
  tailInRange : ring.tail < ringSlots
  seqIncreasing : ring.contents.Pairwise (fun older newer => older.seq < newer.seq)
  seqAssigned : ∀ event ∈ ring.contents, event.seq < ring.nextSeq
  seqNotExhausted : ring.nextSeq ≤ u64Max
  seqCounts : ring.accepted + 1 = ring.nextSeq
  balanced : ring.accepted = ring.acknowledged + ring.depth
  overflowedNonempty : ring.queueState = .overflowed → ring.depth ≠ 0

theorem wellFormed_new : new.WellFormed where
  headInRange := by decide
  tailInRange := by decide
  seqIncreasing := List.Pairwise.nil
  seqAssigned := by
    intro event member
    cases member
  seqNotExhausted := by decide
  seqCounts := rfl
  balanced := rfl
  overflowedNonempty := by decide

namespace WellFormed

variable {ring : AuthEventRing}

theorem indicesValid (formed : ring.WellFormed) : ring.indicesValid = true := by
  simp [AuthEventRing.indicesValid, formed.headInRange, formed.tailInRange]

theorem depth_eq (formed : ring.WellFormed) :
    ring.depth = occupancy ringSlots ring.head ring.tail := by
  rw [depth, if_pos formed.indicesValid]
  rfl

theorem depth_lt (formed : ring.WellFormed) : ring.depth < ringSlots := by
  rw [formed.depth_eq]
  exact occupancy_lt formed.headInRange

theorem head_eq (formed : ring.WellFormed) :
    ring.head = (ring.tail + ring.depth) % ringSlots := by
  rw [formed.depth_eq]
  exact (add_occupancy formed.headInRange formed.tailInRange).symm

theorem head_eq_tail_iff (formed : ring.WellFormed) :
    ring.head = ring.tail ↔ ring.depth = 0 := by
  rw [formed.depth_eq]
  exact (occupancy_eq_zero_iff formed.headInRange formed.tailInRange).symm

theorem contents_length (_ : ring.WellFormed) :
    ring.contents.length = ring.depth := window_length _ _ _

theorem contents_eq_cons (formed : ring.WellFormed)
    (nonempty : ring.head ≠ ring.tail) :
    ring.contents = ring.events (slot ring.tail) ::
      window ring.events (ring.tail + 1) (ring.depth - 1) := by
  have positive : ring.depth ≠ 0 := fun empty =>
    nonempty (formed.head_eq_tail_iff.mpr empty)
  have successor : ring.depth = (ring.depth - 1) + 1 := by omega
  rw [contents, successor]
  rfl

end WellFormed

/-! ## Queue states -/

theorem degradeTo_eq (ring : AuthEventRing) (newState : QueueState) :
    ring.degradeTo newState =
      { ring with state := (ring.degradeTo newState).state } := by
  unfold degradeTo
  split
  · split <;> rfl
  · rfl

@[simp] theorem degradeTo_corrupt_queueState (ring : AuthEventRing) :
    (ring.degradeTo .corrupt).queueState = .corrupt := by
  simp [degradeTo, queueState]

/-- Two rings with the same queue: only the counters that do not count accepted
or acknowledged events, the warning time and the health may differ. -/
structure SameQueue (before after : AuthEventRing) : Prop where
  head : after.head = before.head
  tail : after.tail = before.tail
  nextSeq : after.nextSeq = before.nextSeq
  accepted : after.accepted = before.accepted
  acknowledged : after.acknowledged = before.acknowledged
  events : after.events = before.events

namespace SameQueue

variable {before after : AuthEventRing}

theorem refl (ring : AuthEventRing) : SameQueue ring ring :=
  ⟨rfl, rfl, rfl, rfl, rfl, rfl⟩

theorem depth (same : SameQueue before after) : after.depth = before.depth := by
  simp [AuthEventRing.depth, indicesValid, same.head, same.tail]

theorem contents (same : SameQueue before after) :
    after.contents = before.contents := by
  rw [AuthEventRing.contents, same.events, same.tail, same.depth]
  rfl

theorem wellFormed (same : SameQueue before after)
    (formed : before.WellFormed)
    (overflow : after.queueState = .overflowed → before.depth ≠ 0) :
    after.WellFormed where
  headInRange := same.head ▸ formed.headInRange
  tailInRange := same.tail ▸ formed.tailInRange
  seqIncreasing := by
    rw [same.contents]
    exact formed.seqIncreasing
  seqAssigned := by
    rw [same.contents, same.nextSeq]
    exact formed.seqAssigned
  seqNotExhausted := same.nextSeq ▸ formed.seqNotExhausted
  seqCounts := by
    rw [same.accepted, same.nextSeq]
    exact formed.seqCounts
  balanced := by
    rw [same.accepted, same.acknowledged, same.depth]
    exact formed.balanced
  overflowedNonempty := by
    rw [same.depth]
    exact overflow

end SameQueue

theorem sameQueue_degradeTo (ring : AuthEventRing) (newState : QueueState) :
    SameQueue ring (ring.degradeTo newState) := by
  rw [degradeTo_eq]
  exact ⟨rfl, rfl, rfl, rfl, rfl, rfl⟩

theorem wellFormed_degradeTo_corrupt {ring : AuthEventRing}
    (formed : ring.WellFormed) : (ring.degradeTo .corrupt).WellFormed :=
  (sameQueue_degradeTo ring .corrupt).wellFormed formed
    (by simp)

/-! ## Offering -/

structure Offer where
  eventId : EventId
  username : EncodedUsername
  timestamp : TimestampTz
  kind : UInt8
  flags : UInt8
  generation : TimestampTz
  deriving DecidableEq, Repr

def Offer.event (offer : Offer) (seq : Nat) : SharedAuthEvent where
  eventId := offer.eventId
  username := offer.username
  timestamp := offer.timestamp
  seq := seq
  kind := offer.kind
  generation := offer.generation
  flags := offer.flags

def offerTo (ring : AuthEventRing) (offer : Offer) :
    AuthEventRing × EnqueueStep :=
  ring.tryEnqueue offer.eventId offer.username offer.timestamp offer.kind
    offer.flags offer.generation

/-- The ring after `offer` was accepted. -/
def push (ring : AuthEventRing) (offer : Offer) : AuthEventRing :=
  { ring with
    nextSeq := ring.nextSeq + 1
    events := store ring.events ring.head (offer.event ring.nextSeq)
    head := advance ring.head
    accepted := saturatingIncrement ring.accepted }

theorem degradeTo_overflowed_queueState {ring : AuthEventRing}
    (notCorrupt : ring.queueState ≠ .corrupt) :
    (ring.degradeTo .overflowed).queueState = .overflowed := by
  cases state : ring.queueState with
  | healthy =>
      rw [degradeTo, if_pos (by simp), if_pos (.inr state)]
      rfl
  | overflowed => simp [degradeTo, state]
  | corrupt => exact absurd state notCorrupt

theorem offerTo_full {ring : AuthEventRing} (formed : ring.WellFormed)
    (offer : Offer) (notCorrupt : ring.queueState ≠ .corrupt)
    (isFull : advance ring.head = ring.tail) :
    (ring.offerTo offer).2.outcome = .durableOnly ∧
      SameQueue ring (ring.offerTo offer).1 ∧
      (ring.offerTo offer).1.queueState = .overflowed := by
  have overflowed : (({ ring with
      rejected := saturatingIncrement ring.rejected
      durableOnly := saturatingIncrement ring.durableOnly } :
        AuthEventRing).degradeTo .overflowed).queueState = .overflowed :=
    degradeTo_overflowed_queueState notCorrupt
  unfold offerTo tryEnqueue
  rw [if_neg (by simp [formed.indicesValid]), if_neg notCorrupt]
  simp only [if_pos isFull, shouldWarnNow]
  split
  · refine ⟨trivial, ?_, overflowed⟩
    rw [degradeTo_eq]
    exact ⟨rfl, rfl, rfl, rfl, rfl, rfl⟩
  · refine ⟨trivial, ?_, overflowed⟩
    rw [degradeTo_eq]
    exact ⟨rfl, rfl, rfl, rfl, rfl, rfl⟩

/-- Everything an offer can do: the event is refused and the queue stays as it
is, or it is accepted at the back. -/
theorem offerTo_cases {ring : AuthEventRing} (formed : ring.WellFormed)
    (offer : Offer) :
    ((ring.offerTo offer).2.outcome ≠ .enqueued ∧
        SameQueue ring (ring.offerTo offer).1 ∧
        (ring.queueState = .corrupt →
          (ring.offerTo offer).1.queueState = .corrupt) ∧
        ((ring.offerTo offer).1.queueState = .corrupt →
          ring.queueState = .corrupt ∨ ring.nextSeq = u64Max) ∧
        ((ring.offerTo offer).1.queueState = .overflowed → ring.depth ≠ 0)) ∨
      ((ring.offerTo offer).2.outcome = .enqueued ∧
        ring.queueState ≠ .corrupt ∧ advance ring.head ≠ ring.tail ∧
        ring.nextSeq ≠ u64Max ∧ (ring.offerTo offer).1 = ring.push offer) := by
  by_cases isCorrupt : ring.queueState = .corrupt
  · unfold offerTo tryEnqueue
    rw [if_neg (by simp [formed.indicesValid]), if_pos isCorrupt]
    exact .inl ⟨by simp, SameQueue.refl ring, id, .inl, by simp [isCorrupt]⟩
  by_cases isFull : advance ring.head = ring.tail
  · rcases offerTo_full formed offer isCorrupt isFull with
      ⟨outcome, same, overflowed⟩
    refine .inl ⟨by simp [outcome], same,
      fun wasCorrupt => absurd wasCorrupt isCorrupt, by simp [overflowed], ?_⟩
    intro _ empty
    rw [formed.head_eq_tail_iff.mpr empty] at isFull
    exact advance_ne formed.tailInRange isFull
  unfold offerTo tryEnqueue
  rw [if_neg (by simp [formed.indicesValid]), if_neg isCorrupt]
  simp only [if_neg isFull]
  by_cases exhausted : ring.nextSeq = u64Max
  · left
    simp only [if_pos exhausted]
    refine ⟨by simp, ?_, by simp, fun _ => .inr exhausted, by simp⟩
    rw [degradeTo_eq]
    exact ⟨rfl, rfl, rfl, rfl, rfl, rfl⟩
  · right
    simp only [if_neg exhausted]
    exact ⟨trivial, isCorrupt, isFull, exhausted, rfl⟩

theorem push_depth {ring : AuthEventRing} (formed : ring.WellFormed)
    (room : advance ring.head ≠ ring.tail) (offer : Offer) :
    (ring.push offer).depth = ring.depth + 1 := by
  have valid : (ring.push offer).indicesValid = true := by
    simp [indicesValid, push, advance_lt, formed.tailInRange]
  rw [AuthEventRing.depth, if_pos valid, formed.depth_eq]
  exact occupancy_next_head formed.headInRange formed.tailInRange room

theorem push_contents {ring : AuthEventRing} (formed : ring.WellFormed)
    (room : advance ring.head ≠ ring.tail) (offer : Offer) :
    (ring.push offer).contents =
      ring.contents ++ [offer.event ring.nextSeq] := by
  rw [contents, push_depth formed room offer]
  simp only [push]
  rw [formed.head_eq]
  exact window_store_last ring.events ring.tail formed.depth_lt _

theorem wellFormed_push {ring : AuthEventRing} (formed : ring.WellFormed)
    (room : advance ring.head ≠ ring.tail) (available : ring.nextSeq ≠ u64Max)
    (offer : Offer) : (ring.push offer).WellFormed where
  headInRange := advance_lt _
  tailInRange := formed.tailInRange
  seqIncreasing := by
    rw [push_contents formed room offer, List.pairwise_append]
    refine ⟨formed.seqIncreasing, List.pairwise_singleton _ _, ?_⟩
    intro older member newer last
    rw [List.mem_singleton] at last
    rw [last]
    exact formed.seqAssigned older member
  seqAssigned := by
    intro event member
    rw [push_contents formed room offer] at member
    simp only [push]
    rcases List.mem_append.mp member with earlier | last
    · have := formed.seqAssigned event earlier
      omega
    · rw [List.mem_singleton.mp last]
      simp [Offer.event]
  seqNotExhausted := by
    have := formed.seqNotExhausted
    simp only [push]
    omega
  seqCounts := by
    have := formed.seqCounts
    have := formed.seqNotExhausted
    simp only [push, saturatingIncrement]
    omega
  balanced := by
    have := formed.balanced
    have := formed.seqCounts
    have := formed.seqNotExhausted
    rw [push_depth formed room offer]
    simp only [push, saturatingIncrement]
    omega
  overflowedNonempty := by
    rw [push_depth formed room offer]
    omega

theorem wellFormed_offerTo {ring : AuthEventRing} (formed : ring.WellFormed)
    (offer : Offer) : (ring.offerTo offer).1.WellFormed := by
  rcases offerTo_cases formed offer with
    ⟨_, same, _, _, overflow⟩ | ⟨_, _, room, available, accepted⟩
  · exact same.wellFormed formed overflow
  · rw [accepted]
    exact wellFormed_push formed room available offer

/-! ## Claiming -/

theorem claim_eq {ring : AuthEventRing} (formed : ring.WellFormed) :
    ring.claim = (ring, ring.contents.head?.map
      fun event => (⟨ring.tail, event.seq⟩, event)) := by
  rw [claim, if_neg (by simp [formed.indicesValid])]
  by_cases empty : ring.head = ring.tail
  · have none : ring.contents = [] := by
      rw [← List.length_eq_zero_iff, formed.contents_length]
      exact formed.head_eq_tail_iff.mp empty
    simp [empty, none]
  · rw [if_neg empty, formed.contents_eq_cons empty]
    rfl

/-! ## Acknowledging -/

def moveTail (ring : AuthEventRing) : AuthEventRing :=
  { ring with
    tail := advance ring.tail
    acknowledged := saturatingIncrement ring.acknowledged }

def pop (ring : AuthEventRing) : AuthEventRing :=
  if ring.moveTail.head = ring.moveTail.tail ∧
      ring.moveTail.queueState = .overflowed then
    { ring.moveTail with state := QueueState.healthy.raw }
  else ring.moveTail

theorem pop_eq (ring : AuthEventRing) :
    ring.pop = { ring with
      tail := advance ring.tail
      acknowledged := saturatingIncrement ring.acknowledged
      state := ring.pop.state } := by
  unfold pop
  split <;> rfl

@[simp] theorem pop_head (ring : AuthEventRing) : ring.pop.head = ring.head := by
  rw [pop_eq]

@[simp] theorem pop_tail (ring : AuthEventRing) :
    ring.pop.tail = advance ring.tail := by
  rw [pop_eq]

@[simp] theorem pop_nextSeq (ring : AuthEventRing) :
    ring.pop.nextSeq = ring.nextSeq := by
  rw [pop_eq]

@[simp] theorem pop_accepted (ring : AuthEventRing) :
    ring.pop.accepted = ring.accepted := by
  rw [pop_eq]

@[simp] theorem pop_acknowledged (ring : AuthEventRing) :
    ring.pop.acknowledged = saturatingIncrement ring.acknowledged := by
  rw [pop_eq]

@[simp] theorem pop_events (ring : AuthEventRing) :
    ring.pop.events = ring.events := by
  rw [pop_eq]

theorem pop_queueState (ring : AuthEventRing) :
    (ring.head = advance ring.tail ∧ ring.queueState = .overflowed ∧
        ring.pop.queueState = .healthy) ∨
      (¬(ring.head = advance ring.tail ∧ ring.queueState = .overflowed) ∧
        ring.pop.queueState = ring.queueState) := by
  unfold pop
  split
  · next drained => exact .inl ⟨drained.1, drained.2, rfl⟩
  · next undrained => exact .inr ⟨undrained, rfl⟩

theorem ack_current {ring : AuthEventRing} (formed : ring.WellFormed)
    (nonempty : ring.head ≠ ring.tail) {token : ClaimToken}
    (sameSlot : token.slot = ring.tail)
    (sameSeq : (ring.events (slot token.slot)).seq = token.seq) :
    ring.ack token = (ring.pop, .acknowledged) := by
  have inRange : ¬token.slot ≥ ringSlots := by
    rw [sameSlot]
    exact Nat.not_le_of_lt formed.tailInRange
  rw [ack, if_neg (by simp [formed.indicesValid]), if_neg nonempty,
    if_neg (not_not.mpr sameSlot), if_neg inRange, if_neg (not_not.mpr sameSeq)]
  rfl

theorem ack_otherSlot {ring : AuthEventRing} (formed : ring.WellFormed)
    (nonempty : ring.head ≠ ring.tail) {token : ClaimToken}
    (otherSlot : token.slot ≠ ring.tail) :
    ring.ack token = (ring, .stale) := by
  rw [ack, if_neg (by simp [formed.indicesValid]), if_neg nonempty,
    if_pos otherSlot]

theorem ack_otherSeq {ring : AuthEventRing} (formed : ring.WellFormed)
    (nonempty : ring.head ≠ ring.tail) {token : ClaimToken}
    (sameSlot : token.slot = ring.tail)
    (otherSeq : (ring.events (slot token.slot)).seq ≠ token.seq) :
    ring.ack token = (ring, .stale) := by
  have inRange : ¬token.slot ≥ ringSlots := by
    rw [sameSlot]
    exact Nat.not_le_of_lt formed.tailInRange
  rw [ack, if_neg (by simp [formed.indicesValid]), if_neg nonempty,
    if_neg (not_not.mpr sameSlot), if_neg inRange, if_pos otherSeq]

theorem ack_empty {ring : AuthEventRing} (formed : ring.WellFormed)
    (empty : ring.head = ring.tail) (token : ClaimToken) :
    ring.ack token = (ring, .stale) := by
  rw [ack, if_neg (by simp [formed.indicesValid]), if_pos empty]

/-- Everything an acknowledgement can do: it takes the oldest event exactly
when the token is the one a claim would hand out now. -/
theorem ack_cases {ring : AuthEventRing} (formed : ring.WellFormed)
    (token : ClaimToken) :
    (ring.head ≠ ring.tail ∧ token.slot = ring.tail ∧
        token.seq = (ring.events (slot ring.tail)).seq ∧
        ring.ack token = (ring.pop, .acknowledged)) ∨
      (ring.ack token = (ring, .stale) ∧
        ∀ event, ring.claim.2 ≠ some (token, event)) := by
  by_cases empty : ring.head = ring.tail
  · exact .inr ⟨ack_empty formed empty token,
      by simp [claim, formed.indicesValid, empty]⟩
  have claimed : ring.claim.2 = some (⟨ring.tail,
      (ring.events (slot ring.tail)).seq⟩, ring.events (slot ring.tail)) := by
    simp [claim, formed.indicesValid, empty]
  by_cases sameSlot : token.slot = ring.tail
  · by_cases sameSeq : (ring.events (slot token.slot)).seq = token.seq
    · exact .inl ⟨empty, sameSlot, by rw [← sameSeq, sameSlot],
        ack_current formed empty sameSlot sameSeq⟩
    · refine .inr ⟨ack_otherSeq formed empty sameSlot sameSeq, ?_⟩
      intro event equal
      rw [claimed, Option.some.injEq, Prod.mk.injEq] at equal
      apply sameSeq
      rw [sameSlot, ← equal.1]
  · refine .inr ⟨ack_otherSlot formed empty sameSlot, ?_⟩
    intro event equal
    rw [claimed, Option.some.injEq, Prod.mk.injEq] at equal
    apply sameSlot
    rw [← equal.1]

theorem pop_depth {ring : AuthEventRing} (formed : ring.WellFormed)
    (nonempty : ring.head ≠ ring.tail) :
    ring.pop.depth + 1 = ring.depth := by
  have valid : ring.pop.indicesValid = true := by
    simp [indicesValid, advance_lt, formed.headInRange]
  rw [AuthEventRing.depth, if_pos valid, pop_head, pop_tail, formed.depth_eq]
  exact occupancy_next_tail formed.headInRange formed.tailInRange nonempty

theorem pop_contents {ring : AuthEventRing} (formed : ring.WellFormed)
    (nonempty : ring.head ≠ ring.tail) :
    ring.contents = ring.events (slot ring.tail) :: ring.pop.contents := by
  have shorter : ring.pop.depth = ring.depth - 1 := by
    have := pop_depth formed nonempty
    omega
  rw [formed.contents_eq_cons nonempty, contents, shorter, pop_events, pop_tail,
    advance, window_mod]

theorem pop_drained {ring : AuthEventRing} (formed : ring.WellFormed)
    (nonempty : ring.head ≠ ring.tail) (empty : ring.pop.depth = 0) :
    ring.head = advance ring.tail := by
  have shorter := pop_depth formed nonempty
  rw [formed.depth_eq, ← occupancy_next_tail formed.headInRange
    formed.tailInRange nonempty, empty] at shorter
  exact (occupancy_eq_zero_iff formed.headInRange (advance_lt _)).mp
    (Nat.add_right_cancel shorter).symm

theorem wellFormed_pop {ring : AuthEventRing} (formed : ring.WellFormed)
    (nonempty : ring.head ≠ ring.tail) : ring.pop.WellFormed where
  headInRange := by
    rw [pop_head]
    exact formed.headInRange
  tailInRange := by
    rw [pop_tail]
    exact advance_lt _
  seqIncreasing := by
    have increasing := formed.seqIncreasing
    rw [pop_contents formed nonempty] at increasing
    exact (List.pairwise_cons.mp increasing).2
  seqAssigned := by
    intro event member
    rw [pop_nextSeq]
    apply formed.seqAssigned event
    rw [pop_contents formed nonempty]
    exact List.mem_cons_of_mem _ member
  seqNotExhausted := by
    rw [pop_nextSeq]
    exact formed.seqNotExhausted
  seqCounts := by
    rw [pop_accepted, pop_nextSeq]
    exact formed.seqCounts
  balanced := by
    have := pop_depth formed nonempty
    have := formed.balanced
    have := formed.seqCounts
    have := formed.seqNotExhausted
    rw [pop_accepted, pop_acknowledged, saturatingIncrement]
    omega
  overflowedNonempty := by
    intro overflowed empty
    rcases pop_queueState ring with ⟨_, _, healthy⟩ | ⟨undrained, same⟩
    · rw [healthy] at overflowed
      cases overflowed
    · rw [same] at overflowed
      exact undrained ⟨pop_drained formed nonempty empty, overflowed⟩

end PasswordProfile.AuthEvent.AuthEventRing
