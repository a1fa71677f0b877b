import PasswordProfile.AuthEvent.RingQueue

/-! # The ring beside the journal

Every entry point takes the ring lock, so each is one step: offering an event
that the journal has taken, claiming the tail for a given record, acknowledging
from the commit callback, and the administrative reset of a corrupt ring.
-/

namespace PasswordProfile.AuthEvent.AuthEventRing

/-- `enqueue_encoded_with_id_silent` from the journal append on. An event that
is durable is never unavailable. -/
def enqueueEncodedWithId (ring : AuthEventRing) (offer : Offer)
    (appended : Bool) : AuthEventRing × EnqueueStep :=
  if appended then
    let journaled :=
      { ring with journaled := saturatingIncrement ring.journaled }
    let (offered, step) := journaled.offerTo offer
    if step.outcome = .unavailable then
      ({ offered with durableOnly := saturatingIncrement offered.durableOnly },
        { step with outcome := .durableOnly })
    else (offered, step)
  else
    let failed := { ring with
      rejected := saturatingIncrement ring.rejected
      journalFailures := saturatingIncrement ring.journalFailures }
    let (warned, shouldWarn) := failed.shouldWarnNow false offer.timestamp
    (warned, ⟨.unavailable, shouldWarn⟩)

def matchingClaim (ring : AuthEventRing) (eventId : EventId) :
    Option ClaimToken :=
  match ring.claim.2 with
  | some (token, event) => if event.eventId = eventId then some token else none
  | none => none

def ackClaim (ring : AuthEventRing) (token : ClaimToken) :
    AuthEventRing × AckOutcome :=
  match ring.ack token with
  | (acked, .acknowledged) => (acked, .acknowledged)
  | (acked, outcome) => (acked.degradeTo .corrupt, outcome)

/-- `verified` is the result of `verify_pending` on both files. -/
def recoverCorruptRing (ring : AuthEventRing) (verified : Bool) :
    AuthEventRing :=
  if ring.queueState = .corrupt ∧ verified then new else ring

/-! ## Specifications -/

section

variable {ring : AuthEventRing}

/-- A durable event leaves the queue as it is or is put at the back. -/
theorem enqueue_cases (formed : ring.WellFormed) (offer : Offer) :
    (SameQueue ring (ring.enqueueEncodedWithId offer true).1 ∧
        ((ring.enqueueEncodedWithId offer true).1.queueState = .corrupt →
          ring.queueState = .corrupt ∨ ring.nextSeq = u64Max)) ∨
      (ring.queueState ≠ .corrupt ∧
        (ring.enqueueEncodedWithId offer true).1.queueState ≠ .corrupt ∧
        (ring.enqueueEncodedWithId offer true).1.tail = ring.tail ∧
        (ring.enqueueEncodedWithId offer true).1.contents =
          ring.contents ++ [offer.event ring.nextSeq]) := by
  have counted : SameQueue ring
      { ring with journaled := saturatingIncrement ring.journaled } :=
    ⟨rfl, rfl, rfl, rfl, rfl, rfl⟩
  have countedFormed := counted.wellFormed formed formed.overflowedNonempty
  simp only [enqueueEncodedWithId, if_true]
  rcases offerTo_cases countedFormed offer with
    ⟨_, same, _, corrupt, _⟩ | ⟨accepted, notCorrupt, room, _, result⟩
  · left
    have whole : SameQueue ring (offerTo { ring with
        journaled := saturatingIncrement ring.journaled } offer).1 :=
      ⟨same.head, same.tail, same.nextSeq, same.accepted, same.acknowledged,
        same.events⟩
    split
    · exact ⟨⟨whole.head, whole.tail, whole.nextSeq, whole.accepted,
        whole.acknowledged, whole.events⟩, corrupt⟩
    · exact ⟨whole, corrupt⟩
  · right
    simp only [accepted, result, reduceCtorEq, if_false]
    refine ⟨notCorrupt, notCorrupt, rfl, ?_⟩
    rw [push_contents countedFormed room offer, counted.contents]

theorem wellFormed_enqueue (formed : ring.WellFormed) (offer : Offer) :
    (ring.enqueueEncodedWithId offer true).1.WellFormed := by
  have counted : SameQueue ring
      { ring with journaled := saturatingIncrement ring.journaled } :=
    ⟨rfl, rfl, rfl, rfl, rfl, rfl⟩
  have offered := wellFormed_offerTo
    (counted.wellFormed formed formed.overflowedNonempty) offer
  have kept : ∀ (ring : AuthEventRing) (count : Nat), ring.WellFormed →
      AuthEventRing.WellFormed { ring with durableOnly := count } := by
    intro ring count formed
    have same : SameQueue ring { ring with durableOnly := count } :=
      ⟨rfl, rfl, rfl, rfl, rfl, rfl⟩
    exact same.wellFormed formed formed.overflowedNonempty
  simp only [enqueueEncodedWithId, if_true]
  split
  · exact kept _ _ offered
  · exact offered

theorem matchingClaim_eq (formed : ring.WellFormed) (eventId : EventId) :
    ring.matchingClaim eventId =
      (ring.contents.head?.filter fun event =>
        decide (event.eventId = eventId)).map
          fun event => ⟨ring.tail, event.seq⟩ := by
  rw [matchingClaim, claim_eq formed]
  cases ring.contents.head? with
  | none => rfl
  | some event =>
      by_cases same : event.eventId = eventId
      · simp [same]
      · simp [same]

theorem ackClaim_matching (formed : ring.WellFormed) {eventId : EventId}
    {token : ClaimToken} (claimed : ring.matchingClaim eventId = some token) :
    ∃ event rest, ring.contents = event :: rest ∧ event.eventId = eventId ∧
      ring.ackClaim token = (ring.pop, .acknowledged) ∧
      ring.pop.contents = rest ∧ ring.pop.WellFormed := by
  rw [matchingClaim] at claimed
  cases found : ring.claim.2 with
  | none =>
      rw [found] at claimed
      cases claimed
  | some pair =>
      rcases pair with ⟨held, event⟩
      rw [found] at claimed
      simp only at claimed
      split at claimed
      · next same =>
          cases claimed
          rcases ack_cases formed token with
            ⟨nonempty, _, _, result⟩ | ⟨_, unclaimed⟩
          · have oldest := found
            rw [claim_eq formed, pop_contents formed nonempty] at oldest
            simp only [List.head?_cons, Option.map_some, Option.some.injEq,
              Prod.mk.injEq] at oldest
            refine ⟨event, ring.pop.contents, ?_, same, ?_, rfl,
              wellFormed_pop formed nonempty⟩
            · rw [← oldest.2]
              exact pop_contents formed nonempty
            · rw [ackClaim, result]
          · exact absurd found (unclaimed event)
      · cases claimed

theorem pop_not_corrupt (notCorrupt : ring.queueState ≠ .corrupt) :
    ring.pop.queueState ≠ .corrupt := by
  rcases pop_queueState ring with ⟨_, _, healthy⟩ | ⟨_, same⟩
  · simp [healthy]
  · rw [same]
    exact notCorrupt

end

end PasswordProfile.AuthEvent.AuthEventRing
