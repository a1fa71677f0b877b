import PasswordProfile.PendingCacheOp.Savepoints
import Mathlib.Data.Finset.Card

/-! # The savepoint algebra of the staging area

The entries and the pending acknowledgement follow the stack of frames over
every run, so that at commit exactly the surviving work is there.
-/

namespace PasswordProfile.PendingCacheOp

open AuthEvent FixedArray Execution

/-! ## The acknowledgement follows the frames -/

def ackView (log : List ClaimToken) : List Frame → Option PendingAck
  | [] => none
  | frame :: outer =>
      if log.length - 1 ∈ frame.acks then
        log.getLast?.map fun token => ⟨token, frame.subid⟩
      else ackView log outer

structure AckTracks (ack : Option PendingAck) (log : List ClaimToken)
    (frames : List Frame) : Prop where
  ack : ack = ackView log frames
  once : (frames.flatMap Frame.acks).Nodup
  logged : ∀ index ∈ frames.flatMap Frame.acks, index < log.length

theorem ackView_subid {log : List ClaimToken} {frames : List Frame}
    {ack : PendingAck} (found : ackView log frames = some ack) :
    ack.subid ∈ frames.map Frame.subid := by
  induction frames with
  | nil => cases found
  | cons frame outer induction =>
      rw [ackView] at found
      split at found
      · rw [Option.map_eq_some_iff] at found
        rcases found with ⟨token, _, rfl⟩
        exact List.mem_cons_self
      · exact List.mem_cons_of_mem _ (induction found)

theorem ackView_eq_none {log : List ClaimToken} {frames : List Frame}
    (missing : log.length - 1 ∉ frames.flatMap Frame.acks) :
    ackView log frames = none := by
  induction frames with
  | nil => rfl
  | cons frame outer induction =>
      rw [List.flatMap_cons, List.mem_append, not_or] at missing
      rw [ackView, if_neg missing.1]
      exact induction missing.2

theorem ackView_token (log : List ClaimToken) (frames : List Frame) :
    (ackView log frames).map PendingAck.token =
      if log.length - 1 ∈ frames.flatMap Frame.acks then log.getLast?
      else none := by
  induction frames with
  | nil => rfl
  | cons frame outer induction =>
      rw [ackView, List.flatMap_cons]
      by_cases here : log.length - 1 ∈ frame.acks
      · rw [if_pos here, if_pos (List.mem_append_left _ here)]
        cases log.getLast? with
        | none => rfl
        | some token => rfl
      · rw [if_neg here, induction]
        simp [here]

theorem AckTracks.stageAck {ack : Option PendingAck} {log : List ClaimToken}
    {current : Frame} {outer : List Frame}
    (tracks : AckTracks ack log (current :: outer)) (token : ClaimToken) :
    AckTracks (some ⟨token, current.subid⟩) (log ++ [token])
      ({ current with acks := current.acks ++ [log.length] } :: outer) where
  ack := by
    rw [ackView, if_pos (by simp)]
    simp
  once := by
    have fresh : log.length ∉ (current :: outer).flatMap Frame.acks :=
      fun member => Nat.lt_irrefl _ (tracks.logged _ member)
    have once := tracks.once
    rw [List.flatMap_cons] at fresh once ⊢
    rw [List.append_assoc]
    exact (List.perm_middle.nodup_iff).mpr (List.nodup_cons.mpr ⟨fresh, once⟩)
  logged := by
    intro index member
    rw [List.length_append]
    rw [List.flatMap_cons, List.append_assoc, List.mem_append] at member
    have known : ∀ index ∈ (current :: outer).flatMap Frame.acks,
        index < log.length := tracks.logged
    rw [List.flatMap_cons] at known
    rcases member with earlier | later
    · exact Nat.lt_succ_of_lt (known index (List.mem_append_left _ earlier))
    · rcases List.mem_cons.mp later with rfl | outside
      · exact Nat.lt_succ_self _
      · exact Nat.lt_succ_of_lt (known index (List.mem_append_right _ outside))

theorem AckTracks.abortSavepoint {ack : Option PendingAck}
    {log : List ClaimToken} {current : Frame} {outer : List Frame}
    (tracks : AckTracks ack log (current :: outer))
    (levels : ((current :: outer).map Frame.subid).Nodup) :
    AckTracks (ack.filter fun ack => ack.subid != current.subid) log
      outer where
  ack := by
    have once := tracks.once
    rw [List.flatMap_cons, List.nodup_append] at once
    rw [tracks.ack, ackView]
    by_cases here : log.length - 1 ∈ current.acks
    · rw [if_pos here, ackView_eq_none fun member =>
        once.2.2 _ here _ member rfl]
      cases log.getLast? with
      | none => rfl
      | some token => simp
    · rw [if_neg here]
      cases found : ackView log outer with
      | none => rfl
      | some ack =>
          have different : ack.subid ≠ current.subid := by
            intro same
            exact (List.nodup_cons.mp levels).1 (same ▸ ackView_subid found)
          simp [different]
  once := (List.nodup_append.mp (List.flatMap_cons ▸ tracks.once)).2.1
  logged := fun index member =>
    tracks.logged index (List.flatMap_cons ▸ List.mem_append_right _ member)

theorem AckTracks.commitSavepoint {ack : Option PendingAck}
    {log : List ClaimToken} {current parent : Frame} {rest : List Frame}
    (tracks : AckTracks ack log (current :: parent :: rest))
    (levels : ((current :: parent :: rest).map Frame.subid).Nodup) :
    AckTracks
      (ack.map fun ack =>
        if ack.subid = current.subid then { ack with subid := parent.subid }
        else ack) log (parent.adopt current :: rest) where
  ack := by
    have outside := (List.nodup_cons.mp levels).1
    rw [tracks.ack, ackView, ackView, ackView]
    simp only [Frame.adopt, List.mem_append]
    by_cases inner : log.length - 1 ∈ current.acks
    · rw [if_pos inner, if_pos (.inr inner)]
      cases log.getLast? with
      | none => rfl
      | some token => simp
    · rw [if_neg inner]
      by_cases atParent : log.length - 1 ∈ parent.acks
      · rw [if_pos atParent, if_pos (.inl atParent)]
        have different : parent.subid ≠ current.subid := by
          intro same
          exact outside (same ▸ List.mem_cons_self)
        cases log.getLast? with
        | none => rfl
        | some token => simp [different]
      · rw [if_neg atParent, if_neg (not_or.mpr ⟨atParent, inner⟩)]
        cases found : ackView log rest with
        | none => rfl
        | some ack =>
            have different : ack.subid ≠ current.subid := by
              intro same
              exact outside (same ▸ List.mem_cons_of_mem _ (ackView_subid found))
            simp [different]
  once := by
    have once := tracks.once
    simp only [List.flatMap_cons, Frame.adopt] at once ⊢
    rw [← List.append_assoc] at once
    exact ((List.perm_append_comm.append_right _).nodup_iff).mp once
  logged := by
    intro index member
    apply tracks.logged
    simp only [List.flatMap_cons, Frame.adopt, List.mem_append] at member ⊢
    tauto

/-! ## Runs -/

structure Tracks (transaction : Transaction) : Prop where
  levels : (transaction.frames.map Frame.subid).Nodup
  entries : EntriesTrack transaction.pending transaction.frames
  ack : AckTracks transaction.pending.ack transaction.ackLog transaction.frames

theorem tracks_start (top : SubTransactionId) :
    Tracks (Transaction.start top) where
  levels := List.nodup_singleton top
  entries := ⟨[], PendingState.holds_new, fun _ => rfl⟩
  ack := ⟨rfl, List.nodup_nil, fun _ member => nomatch member⟩

theorem Tracks.stageEntry {transaction : Transaction}
    (tracks : Tracks transaction) (staged : StagedEntry) :
    Tracks (transaction.stageEntry staged) := by
  have kept := transaction.pending.stageEntry_ack staged.username
    staged.decision staged.expiry transaction.current.subid
  by_cases accepted : (transaction.pending.stageEntry staged.username
      staged.decision staged.expiry transaction.current.subid).2 = true
  · simp only [Transaction.stageEntry, if_pos accepted]
    refine ⟨tracks.levels,
      tracks.entries.stageEntry tracks.levels staged accepted, ?_⟩
    simp only [kept]
    exact ⟨tracks.ack.ack, tracks.ack.once, tracks.ack.logged⟩
  · rcases tracks.entries with ⟨items, holds, _⟩
    rcases PendingState.stageEntry_cases holds staged.username
        staged.decision staged.expiry transaction.current.subid with
      ⟨_, _, _, _, _, taken, _⟩ | ⟨_, ⟨_, taken, _⟩ | ⟨_, same⟩⟩
    · exact absurd taken accepted
    · exact absurd taken accepted
    · simp only [Transaction.stageEntry, same]
      exact tracks

theorem Tracks.step {transaction next : Transaction}
    (tracks : Tracks transaction) {action : Action}
    (stepped : transaction.step action = some next) : Tracks next := by
  cases action with
  | stageEntry staged =>
      cases stepped
      exact tracks.stageEntry staged
  | stageAck token =>
      cases stepped
      refine ⟨tracks.levels, ?_, tracks.ack.stageAck token⟩
      rcases tracks.entries with ⟨items, holds, filtered⟩
      exact ⟨items, ⟨holds.packed, holds.len⟩, filtered⟩
  | startSavepoint subid =>
      rw [Transaction.step] at stepped
      split at stepped
      · cases stepped
      · next fresh =>
          cases stepped
          exact ⟨List.nodup_cons.mpr ⟨fresh, tracks.levels⟩,
            tracks.entries.startSavepoint subid,
            tracks.ack.ack, tracks.ack.once, tracks.ack.logged⟩
  | commitSavepoint =>
      rcases transaction with ⟨pending, current, outer, log⟩
      cases outer with
      | nil => cases stepped
      | cons parent rest =>
          cases stepped
          exact ⟨(List.nodup_cons.mp tracks.levels).2,
            tracks.entries.commitSavepoint tracks.levels,
            tracks.ack.commitSavepoint tracks.levels⟩
  | abortSavepoint =>
      rcases transaction with ⟨pending, current, outer, log⟩
      cases outer with
      | nil => cases stepped
      | cons parent rest =>
          cases stepped
          exact ⟨(List.nodup_cons.mp tracks.levels).2,
            tracks.entries.abortSavepoint tracks.levels,
            tracks.ack.abortSavepoint tracks.levels⟩

theorem tracks_run {top : SubTransactionId} {actions : List Action}
    {transaction : Transaction}
    (completed : Transaction.machine.run (.start top) actions =
      some transaction) : Tracks transaction :=
  Machine.run_invariant
    (fun {state} {_} {_} (tracks : Tracks state) stepped => tracks.step stepped)
    (tracks_start top) completed

/-! ## The savepoint algebra -/

def PendingEntry.pair (entry : PendingEntry) :
    EncodedUsername × SubTransactionId :=
  (entry.username, entry.subid)

section

variable {items : List PendingEntry} {frames : List Frame}

theorem pairs_distinct (levels : (frames.map Frame.subid).Nodup)
    (filtered : ∀ username, items.filter
      (fun entry => entry.username = username) = view username frames) :
    (items.map PendingEntry.pair).Nodup := by
  rw [List.Nodup, List.pairwise_map, List.pairwise_iff_forall_sublist]
  intro earlier later sublist same
  rw [PendingEntry.pair, PendingEntry.pair, Prod.mk.injEq] at same
  have ofUser : [earlier, later].Sublist
      (view later.username frames) := by
    rw [← filtered]
    simpa [same.1] using
      sublist.filter fun entry => entry.username = later.username
  exact List.pairwise_iff_forall_sublist.mp (view_pairwise levels) ofUser same.2

theorem mem_pairs (filtered : ∀ username, items.filter
      (fun entry => entry.username = username) = view username frames)
    (username : EncodedUsername) (subid : SubTransactionId) :
    (username, subid) ∈ items.map PendingEntry.pair ↔
      ∃ frame ∈ frames, frame.subid = subid ∧
        ∃ staged ∈ frame.entries, staged.username = username := by
  rw [← mem_view, ← filtered]
  simp [PendingEntry.pair, and_assoc]

end

theorem Tracks.pairs_eq {transaction : Transaction}
    (tracks : Tracks transaction) {items : List PendingEntry}
    (filtered : ∀ username, items.filter
      (fun entry => entry.username = username) =
        view username transaction.frames) :
    (items.map PendingEntry.pair).toFinset = transaction.livePairs ∧
      items.length = transaction.livePairs.card := by
  have same : (items.map PendingEntry.pair).toFinset =
      transaction.livePairs := by
    ext pair
    rcases pair with ⟨username, subid⟩
    rw [List.mem_toFinset, mem_pairs filtered, Transaction.livePairs,
      List.mem_toFinset, List.mem_flatMap]
    simp only [List.mem_map, Prod.mk.injEq]
    constructor
    · intro given
      rcases given with ⟨frame, member, level, staged, here, isUser⟩
      exact ⟨frame, member, staged, here, isUser, level⟩
    · intro given
      rcases given with ⟨frame, member, staged, here, isUser, level⟩
      exact ⟨frame, member, level, staged, here, isUser⟩
  refine ⟨same, ?_⟩
  rw [← same, List.toFinset_card_of_nodup
    (pairs_distinct tracks.levels filtered), List.length_map]

/-- A stage call is refused exactly when the staging area is full of other
pairs, and then it changes nothing. -/
theorem Tracks.capacity {transaction : Transaction}
    (tracks : Tracks transaction) (staged : StagedEntry) :
    ((transaction.pending.stageEntry staged.username staged.decision
        staged.expiry transaction.current.subid).2 = false ↔
      transaction.livePairs.card = maxPendingOps ∧
        (staged.username, transaction.current.subid) ∉
          transaction.livePairs) ∧
    ((transaction.pending.stageEntry staged.username staged.decision
        staged.expiry transaction.current.subid).2 = false →
      (transaction.pending.stageEntry staged.username staged.decision
        staged.expiry transaction.current.subid).1 = transaction.pending) := by
  rcases tracks.entries with ⟨items, holds, filtered⟩
  rcases tracks.pairs_eq filtered with ⟨pairs, count⟩
  rw [← count, ← pairs, List.mem_toFinset]
  have unmatchedIff : (∀ entry ∈ items,
      entry.isFor staged.username transaction.current.subid = false) ↔
      (staged.username, transaction.current.subid) ∉
        items.map PendingEntry.pair := by
    simp only [List.mem_map, PendingEntry.pair, Prod.mk.injEq, not_exists,
      not_and, PendingEntry.isFor, Bool.and_eq_false_iff, beq_eq_false_iff_ne]
    constructor
    · intro unmatched entry member isUser level
      rcases unmatched entry member with different | different
      · exact different level
      · exact different isUser
    · intro missing entry member
      by_cases level : entry.subid = transaction.current.subid
      · exact .inr fun isUser => missing entry member isUser level
      · exact .inl level
  rcases PendingState.stageEntry_cases holds staged.username staged.decision
      staged.expiry transaction.current.subid with
    ⟨before, old, after, split, matched, accepted, _⟩ |
      ⟨unmatched, ⟨room, accepted, _⟩ | ⟨full, refused⟩⟩
  · rw [accepted, ← unmatchedIff]
    refine ⟨⟨by simp, fun both => ?_⟩, by simp⟩
    have rejected := both.2 old (by simp [split])
    rw [matched] at rejected
    cases rejected
  · rw [accepted]
    refine ⟨⟨by simp, fun both => ?_⟩, by simp⟩
    exact absurd both.1 (Nat.ne_of_lt room)
  · rw [refused, ← unmatchedIff]
    exact ⟨⟨fun _ => ⟨full, unmatched⟩, fun _ => rfl⟩, fun _ => rfl⟩

/-- What the staging area guarantees at every point of a transaction. -/
structure SavepointAlgebra (transaction : Transaction) : Prop where
  lenBounded : transaction.pending.len ≤ maxPendingOps
  filled : ∀ cell, cell.val < transaction.pending.len →
    (transaction.pending.entries cell).isSome
  blank : ∀ cell, transaction.pending.len ≤ cell.val →
    transaction.pending.entries cell = none
  distinct : (transaction.pending.entryList.map PendingEntry.pair).Nodup
  latest : ∀ username,
    (transaction.pending.entryList.filter fun entry =>
        entry.username = username).getLast?.map PendingEntry.staged =
      transaction.lastStaged username
  ack : transaction.pending.ack.map PendingAck.token = transaction.lastAck
  refused : ∀ username decision expiry,
    (transaction.pending.stageEntry username decision expiry
        transaction.current.subid).2 = false ↔
      transaction.livePairs.card = maxPendingOps ∧
        (username, transaction.current.subid) ∉ transaction.livePairs
  refusedUnchanged : ∀ username decision expiry,
    (transaction.pending.stageEntry username decision expiry
        transaction.current.subid).2 = false →
      (transaction.pending.stageEntry username decision expiry
        transaction.current.subid).1 = transaction.pending
  reset : transaction.pending.reset = PendingState.new ∧
    transaction.pending.reset.entryList = [] ∧
    transaction.pending.reset.isEmpty = true

/-- In every well-nested run of one transaction, whatever the nesting, the
staging area follows the surviving work. -/
theorem run_savepointAlgebra {top : SubTransactionId} {actions : List Action}
    {transaction : Transaction}
    (completed : Transaction.machine.run (.start top) actions =
      some transaction) : SavepointAlgebra transaction := by
  have tracks := tracks_run completed
  rcases tracks.entries with ⟨items, holds, filtered⟩
  have listed := holds.entryList_eq
  refine ⟨?_, ?_, ?_, ?_, ?_, ?_,
    fun username decision expiry =>
      (tracks.capacity ⟨username, decision, expiry⟩).1,
    fun username decision expiry =>
      (tracks.capacity ⟨username, decision, expiry⟩).2,
    PendingState.reset_eq_new _, PendingState.holds_new.entryList_eq, rfl⟩
  · rw [holds.len]
    exact holds.packed.fits
  · intro cell inside
    rw [holds.len] at inside
    rw [holds.packed.cell, List.getElem?_eq_getElem inside]
    rfl
  · intro cell outside
    rw [holds.len] at outside
    rw [holds.packed.cell, List.getElem?_eq_none outside]
  · rw [listed]
    exact pairs_distinct tracks.levels filtered
  · intro username
    rw [listed, filtered username, view_getLast?]
    rfl
  · rw [tracks.ack.ack, ackView_token]
    rfl

/-- A lock is staged, an inner savepoint clears it and is rolled back, a second
one replaces the acknowledgement and commits. -/
def nestedSavepoints : List Action :=
  [.stageEntry ⟨encodeUsername "alice", some (.setLock 5), .none⟩,
    .stageAck ⟨0, 1⟩, .startSavepoint 2,
    .stageEntry ⟨encodeUsername "alice", some .clearLock, .clear⟩,
    .abortSavepoint, .startSavepoint 3, .stageAck ⟨0, 2⟩,
    .stageEntry ⟨encodeUsername "bob", none, .clear⟩, .commitSavepoint]

theorem nestedSavepoints_algebra :
    ∃ transaction,
      Transaction.machine.run (.start 1) nestedSavepoints =
        some transaction ∧
      transaction.surviving =
        [⟨encodeUsername "alice", some (.setLock 5), .none⟩,
          ⟨encodeUsername "bob", none, .clear⟩] ∧
      SavepointAlgebra transaction := by
  have completed : Transaction.machine.run (.start 1) nestedSavepoints =
      some _ := rfl
  exact ⟨_, rfl, by decide, run_savepointAlgebra completed⟩

end PasswordProfile.PendingCacheOp
