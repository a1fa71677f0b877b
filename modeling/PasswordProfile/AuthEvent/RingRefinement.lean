import PasswordProfile.AuthEvent.RingQueue
import PasswordProfile.Foundation.Execution

/-! # The ring refines a bounded FIFO

A history runs the ring and writes down which events it accepted and which
tokens it acknowledged. The queue of the abstract FIFO is what these two logs
leave over, and every operation of the ring acts on it.
-/

namespace PasswordProfile.AuthEvent.RingRefinement

open AuthEventRing Execution

structure History where
  ring : AuthEventRing
  accepted : List SharedAuthEvent
  acknowledged : List ClaimToken

inductive Action
  | tryEnqueue (offer : Offer)
  | claim
  | ack (token : ClaimToken)
  | degradeToCorrupt

def initial : History where
  ring := AuthEventRing.new
  accepted := []
  acknowledged := []

def perform (history : History) : Action → History
  | .tryEnqueue offer =>
      { history with
        ring := (history.ring.offerTo offer).1
        accepted :=
          if (history.ring.offerTo offer).2.outcome = .enqueued then
            history.accepted ++ [offer.event history.ring.nextSeq]
          else history.accepted }
  | .claim => { history with ring := history.ring.claim.1 }
  | .ack token =>
      { history with
        ring := (history.ring.ack token).1
        acknowledged :=
          if (history.ring.ack token).2 = .acknowledged then
            history.acknowledged ++ [token]
          else history.acknowledged }
  | .degradeToCorrupt =>
      { history with ring := history.ring.degradeTo .corrupt }

def machine : Machine History Action where
  step history action := some (perform history action)

def History.waiting (history : History) : List SharedAuthEvent :=
  history.accepted.filter fun event =>
    event.seq ∉ history.acknowledged.map ClaimToken.seq

/-! ## The refinement invariant -/

structure Tracks (history : History) : Prop where
  formed : history.ring.WellFormed
  logged : ∃ taken, history.accepted = taken ++ history.ring.contents ∧
    taken.map SharedAuthEvent.seq = history.acknowledged.map ClaimToken.seq
  increasing : history.accepted.Pairwise
    fun older newer => older.seq < newer.seq
  assigned : ∀ event ∈ history.accepted, event.seq < history.ring.nextSeq
  countsAccepted : history.accepted.length = history.ring.accepted
  countsAcknowledged : history.acknowledged.length = history.ring.acknowledged

theorem tracks_initial : Tracks initial where
  formed := wellFormed_new
  logged := ⟨[], rfl, rfl⟩
  increasing := List.Pairwise.nil
  assigned := by
    intro event member
    cases member
  countsAccepted := rfl
  countsAcknowledged := rfl

theorem Tracks.of_sameQueue {history : History} (tracks : Tracks history)
    {ring : AuthEventRing} (formed : ring.WellFormed)
    (same : SameQueue history.ring ring) :
    Tracks { history with ring } where
  formed := formed
  logged := by
    rw [same.contents]
    exact tracks.logged
  increasing := tracks.increasing
  assigned := by
    intro event member
    rw [same.nextSeq]
    exact tracks.assigned event member
  countsAccepted := by
    rw [same.accepted]
    exact tracks.countsAccepted
  countsAcknowledged := by
    rw [same.acknowledged]
    exact tracks.countsAcknowledged

theorem Tracks.tryEnqueue {history : History} (tracks : Tracks history)
    (offer : Offer) : Tracks (perform history (.tryEnqueue offer)) := by
  have formed := wellFormed_offerTo tracks.formed offer
  rcases offerTo_cases tracks.formed offer with
    ⟨refused, same, _, _, _⟩ | ⟨accepted, _, room, _, result⟩
  · simpa [perform, refused] using tracks.of_sameQueue formed same
  have queued : (history.ring.offerTo offer).1.contents =
      history.ring.contents ++ [offer.event history.ring.nextSeq] := by
    rw [result]
    exact push_contents tracks.formed room offer
  have counted : (history.ring.offerTo offer).1.accepted =
      history.ring.accepted + 1 := by
    have before := tracks.formed.seqCounts
    have after := formed.seqCounts
    rw [result] at after ⊢
    simp only [push] at after ⊢
    omega
  simp only [perform, if_pos accepted]
  refine ⟨formed, ?_, ?_, ?_, ?_, ?_⟩
  · rcases tracks.logged with ⟨taken, split, seqs⟩
    refine ⟨taken, ?_, seqs⟩
    rw [queued, split, List.append_assoc]
  · rw [List.pairwise_append]
    refine ⟨tracks.increasing, List.pairwise_singleton _ _, ?_⟩
    intro older member newer last
    rw [List.mem_singleton.mp last]
    exact tracks.assigned older member
  · intro event member
    rw [result]
    rcases List.mem_append.mp member with earlier | last
    · exact Nat.lt_succ_of_lt (tracks.assigned event earlier)
    · rw [List.mem_singleton.mp last]
      exact Nat.lt_succ_self _
  · rw [List.length_append, tracks.countsAccepted, counted]
    rfl
  · rw [result]
    exact tracks.countsAcknowledged

theorem Tracks.ack {history : History} (tracks : Tracks history)
    (token : ClaimToken) : Tracks (perform history (.ack token)) := by
  rcases ack_cases tracks.formed token with
    ⟨nonempty, _, sameSeq, result⟩ | ⟨result, _⟩
  · have shrunk := pop_contents tracks.formed nonempty
    have popped := wellFormed_pop tracks.formed nonempty
    simp only [perform, result, if_true]
    refine ⟨popped, ?_, tracks.increasing, ?_, ?_, ?_⟩
    · rcases tracks.logged with ⟨taken, split, seqs⟩
      refine ⟨taken ++ [history.ring.events (slot history.ring.tail)], ?_, ?_⟩
      · rw [split, shrunk, List.append_assoc]
        rfl
      · rw [List.map_append, List.map_append, seqs]
        simp [sameSeq]
    · intro event member
      rw [pop_nextSeq]
      exact tracks.assigned event member
    · rw [pop_accepted]
      exact tracks.countsAccepted
    · have before := tracks.formed.balanced
      have after := popped.balanced
      have shorter := pop_depth tracks.formed nonempty
      rw [pop_accepted] at after
      change (history.acknowledged ++ [token]).length =
        history.ring.pop.acknowledged
      rw [List.length_append, tracks.countsAcknowledged, List.length_singleton]
      omega
  · simpa [perform, result] using tracks

theorem Tracks.perform {history : History} (tracks : Tracks history)
    (action : Action) : Tracks (perform history action) := by
  cases action with
  | tryEnqueue offer => exact tracks.tryEnqueue offer
  | claim =>
      simp only [RingRefinement.perform, claim_eq tracks.formed]
      exact tracks
  | ack token => exact tracks.ack token
  | degradeToCorrupt =>
      exact tracks.of_sameQueue (wellFormed_degradeTo_corrupt tracks.formed)
        (sameQueue_degradeTo history.ring .corrupt)

theorem tracks_run {actions : List Action} {history : History}
    (completed : machine.run initial actions = some history) :
    Tracks history :=
  Machine.run_invariant
    (fun tracks stepped => by
      cases stepped
      exact tracks.perform _)
    tracks_initial completed

/-! ## What the invariant says -/

theorem Tracks.contents_eq {history : History} (tracks : Tracks history) :
    history.ring.contents = history.waiting := by
  rcases tracks.logged with ⟨taken, split, seqs⟩
  have increasing := tracks.increasing
  rw [split, List.pairwise_append] at increasing
  rw [History.waiting, split, List.filter_append, ← seqs]
  have gone : taken.filter (fun event =>
      event.seq ∉ taken.map SharedAuthEvent.seq) = [] := by
    rw [List.filter_eq_nil_iff]
    intro event member
    simpa using ⟨event, member, rfl⟩
  have kept : history.ring.contents.filter (fun event =>
      event.seq ∉ taken.map SharedAuthEvent.seq) = history.ring.contents := by
    rw [List.filter_eq_self]
    intro event member
    simp only [decide_eq_true_eq, List.mem_map, not_exists, not_and]
    intro earlier taken same
    have := increasing.2.2 earlier taken event member
    omega
  rw [gone, kept, List.nil_append]

theorem Tracks.spent {history : History} (tracks : Tracks history)
    {token : ClaimToken} (acknowledged : token ∈ history.acknowledged) :
    (history.ring.ack token).2 ≠ .acknowledged := by
  rcases ack_cases tracks.formed token with
    ⟨nonempty, _, sameSeq, _⟩ | ⟨result, _⟩
  · exfalso
    have oldest : history.ring.events (slot history.ring.tail) ∈
        history.ring.contents := by
      rw [pop_contents tracks.formed nonempty]
      exact List.mem_cons_self
    rw [tracks.contents_eq, History.waiting, List.mem_filter] at oldest
    have missing := of_decide_eq_true oldest.2
    rw [← sameSeq] at missing
    exact missing (List.mem_map_of_mem acknowledged)
  · rw [result]
    simp

theorem ack_acknowledged_iff {ring : AuthEventRing} (formed : ring.WellFormed)
    (token : ClaimToken) :
    (ring.ack token).2 = .acknowledged ↔
      ∃ event, ring.claim.2 = some (token, event) := by
  rcases ack_cases formed token with
    ⟨nonempty, sameSlot, sameSeq, result⟩ | ⟨result, unclaimed⟩
  · have claimed : ring.claim.2 =
        some (token, ring.events (slot ring.tail)) := by
      rw [claim_eq formed, formed.contents_eq_cons nonempty]
      cases token
      simp only at sameSlot sameSeq
      rw [sameSlot, sameSeq]
      rfl
    rw [result, claimed]
    simp
  · rw [result]
    constructor
    · intro acknowledged
      cases acknowledged
    · intro given
      rcases given with ⟨event, claimed⟩
      exact absurd claimed (unclaimed event)

theorem perform_keeps_corrupt {history : History} (tracks : Tracks history)
    (isCorrupt : history.ring.queueState = .corrupt) (action : Action) :
    (perform history action).ring.queueState = .corrupt := by
  cases action with
  | tryEnqueue offer =>
      rcases offerTo_cases tracks.formed offer with
        ⟨_, _, kept, _⟩ | ⟨_, healthy, _⟩
      · exact kept isCorrupt
      · exact absurd isCorrupt healthy
  | claim =>
      simp only [perform, claim_eq tracks.formed]
      exact isCorrupt
  | ack token =>
      rcases ack_cases tracks.formed token with ⟨_, _, _, result⟩ | ⟨result, _⟩
      · simp only [perform, result]
        rcases pop_queueState history.ring with ⟨_, overflowed, _⟩ | ⟨_, same⟩
        · rw [isCorrupt] at overflowed
          cases overflowed
        · rw [same]
          exact isCorrupt
      · simp only [perform, result]
        exact isCorrupt
  | degradeToCorrupt => exact degradeTo_corrupt_queueState history.ring

theorem run_keeps_corrupt {history final : History} {later : List Action}
    (tracks : Tracks history) (isCorrupt : history.ring.queueState = .corrupt)
    (completed : machine.run history later = some final) :
    final.ring.queueState = .corrupt := by
  have preserved : ∀ {reached action next},
      (Tracks reached ∧ reached.ring.queueState = .corrupt) →
      machine.step reached action = some next →
      Tracks next ∧ next.ring.queueState = .corrupt := by
    intro reached action next holds stepped
    cases stepped
    exact ⟨holds.1.perform action, perform_keeps_corrupt holds.1 holds.2 action⟩
  exact (Machine.run_invariant preserved ⟨tracks, isCorrupt⟩ completed).2

/-! ## The refinement -/

/-- The ring of `history` behaves as the bounded FIFO that holds
`history.waiting`. -/
structure RefinesFifo (history : History) : Prop where
  indicesInRange :
    history.ring.head < ringSlots ∧ history.ring.tail < ringSlots
  contents : history.ring.contents = history.waiting
  increasing : history.waiting.Pairwise fun older newer => older.seq < newer.seq
  assigned : ∀ event ∈ history.waiting, event.seq < history.ring.nextSeq
  bounded : history.waiting.length ≤ ringSlots - 1
  tryEnqueue : ∀ offer,
    (history.ring.offerTo offer).1.tail = history.ring.tail ∧
      (history.ring.offerTo offer).1.contents =
        if (history.ring.offerTo offer).2.outcome = .enqueued then
          history.waiting ++ [offer.event history.ring.nextSeq]
        else history.waiting
  claim : history.ring.claim = (history.ring, history.waiting.head?.map
    fun event => (⟨history.ring.tail, event.seq⟩, event))
  ackTaken : ∀ token, (history.ring.ack token).2 = .acknowledged ↔
    ∃ event, history.ring.claim.2 = some (token, event)
  ackRemoves : ∀ token, (history.ring.ack token).2 = .acknowledged →
    (history.ring.ack token).1.contents = history.waiting.tail
  ackRefused : ∀ token, (history.ring.ack token).2 ≠ .acknowledged →
    (history.ring.ack token).1 = history.ring
  spent : ∀ token ∈ history.acknowledged,
    (history.ring.ack token).2 ≠ .acknowledged
  balanced : history.ring.accepted =
    history.ring.acknowledged + history.ring.depth ∧
      history.ring.depth = history.waiting.length
  corruptKept : history.ring.queueState = .corrupt →
    ∀ later final, machine.run history later = some final →
      final.ring.queueState = .corrupt
  overflowedNonempty :
    history.ring.queueState = .overflowed → history.waiting ≠ []
  drained : history.waiting = [] →
    history.ring.queueState = .healthy ∨ history.ring.queueState = .corrupt

theorem Tracks.tryEnqueue_waiting {history : History} (tracks : Tracks history)
    (offer : Offer) :
    (history.ring.offerTo offer).1.tail = history.ring.tail ∧
      (history.ring.offerTo offer).1.contents =
        if (history.ring.offerTo offer).2.outcome = .enqueued then
          history.waiting ++ [offer.event history.ring.nextSeq]
        else history.waiting := by
  rcases offerTo_cases tracks.formed offer with
    ⟨refused, same, _, _, _⟩ | ⟨accepted, _, room, _, result⟩
  · rw [if_neg refused, ← tracks.contents_eq]
    exact ⟨same.tail, same.contents⟩
  · rw [if_pos accepted, ← tracks.contents_eq, result]
    exact ⟨rfl, push_contents tracks.formed room offer⟩

theorem Tracks.ack_waiting {history : History} (tracks : Tracks history)
    (token : ClaimToken) :
    ((history.ring.ack token).2 = .acknowledged →
        (history.ring.ack token).1.contents = history.waiting.tail) ∧
      ((history.ring.ack token).2 ≠ .acknowledged →
        (history.ring.ack token).1 = history.ring) := by
  rcases ack_cases tracks.formed token with
    ⟨nonempty, _, _, result⟩ | ⟨result, _⟩
  · rw [result, ← tracks.contents_eq, pop_contents tracks.formed nonempty]
    simp
  · rw [result]
    simp

theorem Tracks.waiting_eq_nil_iff {history : History}
    (tracks : Tracks history) :
    history.waiting = [] ↔ history.ring.depth = 0 := by
  rw [← tracks.contents_eq, ← List.length_eq_zero_iff,
    tracks.formed.contents_length]

/-- In every run of producers, claims, acknowledgements with any token and
degradations, the ring behaves as the bounded FIFO. -/
theorem run_refines_fifo {actions : List Action} {history : History}
    (completed : machine.run initial actions = some history) :
    RefinesFifo history := by
  have tracks := tracks_run completed
  have formed := tracks.formed
  have contents := tracks.contents_eq
  refine ⟨⟨formed.headInRange, formed.tailInRange⟩, contents, ?_, ?_, ?_,
    tracks.tryEnqueue_waiting, ?_, ack_acknowledged_iff formed,
    fun token => (tracks.ack_waiting token).1,
    fun token => (tracks.ack_waiting token).2,
    fun token => tracks.spent, ?_, ?_, ?_, ?_⟩
  · rw [← contents]
    exact formed.seqIncreasing
  · rw [← contents]
    exact formed.seqAssigned
  · rw [← contents, formed.contents_length]
    exact Nat.le_sub_one_of_lt formed.depth_lt
  · rw [← contents]
    exact claim_eq formed
  · rw [← contents, formed.contents_length]
    exact ⟨formed.balanced, rfl⟩
  · intro isCorrupt later final
    exact run_keeps_corrupt tracks isCorrupt
  · intro overflowed empty
    exact formed.overflowedNonempty overflowed
      (tracks.waiting_eq_nil_iff.mp empty)
  · intro empty
    have drained := tracks.waiting_eq_nil_iff.mp empty
    cases state : history.ring.queueState with
    | healthy => exact .inl rfl
    | overflowed => exact absurd drained (formed.overflowedNonempty state)
    | corrupt => exact .inr rfl

/-- Two events, the first acknowledged with its own token and then once more,
the second with a forged one, and a ring that turns corrupt. -/
def forgedAcknowledgement : List Action :=
  [.tryEnqueue ⟨Vector.replicate 16 1, EncodedUsername.zero, 7, 1, 0, 0⟩,
    .tryEnqueue ⟨Vector.replicate 16 2, EncodedUsername.zero, 8, 1, 0, 0⟩,
    .claim, .ack ⟨0, 1⟩, .ack ⟨0, 1⟩, .ack ⟨1, 7⟩, .degradeToCorrupt]

theorem forgedAcknowledgement_refines_fifo :
    ∃ history, machine.run initial forgedAcknowledgement = some history ∧
      history.waiting.map SharedAuthEvent.seq = [2] ∧ RefinesFifo history := by
  refine ⟨_, rfl, by decide, ?_⟩
  have completed : machine.run initial forgedAcknowledgement = some _ := rfl
  exact run_refines_fifo completed

end PasswordProfile.AuthEvent.RingRefinement
