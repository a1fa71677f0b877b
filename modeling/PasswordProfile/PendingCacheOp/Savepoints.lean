import PasswordProfile.PendingCacheOp.State
import PasswordProfile.Foundation.Execution
import Mathlib.Data.Finset.Dedup
import Mathlib.Data.List.Perm.Basic

/-! # Savepoints

A transaction is a stack of frames, one for every open savepoint: starting one
pushes an empty frame, committing it joins its work to the frame below and
rolling it back drops it. The staging area has only the subtransaction ids to
tell the frames apart.
-/

namespace PasswordProfile.PendingCacheOp

open AuthEvent FixedArray Execution

/-- The arguments of one accepted `stage_entry`. -/
structure StagedEntry where
  username : EncodedUsername
  decision : Option CacheDecision
  expiry : ExpiryDecision
  deriving DecidableEq, Repr

def StagedEntry.at (staged : StagedEntry) (subid : SubTransactionId) :
    PendingEntry :=
  ⟨staged.username, staged.decision, staged.expiry, subid⟩

def PendingEntry.staged (entry : PendingEntry) : StagedEntry :=
  ⟨entry.username, entry.decision, entry.expiry⟩

structure Frame where
  subid : SubTransactionId
  entries : List StagedEntry
  acks : List Nat
  deriving DecidableEq, Repr

def Frame.adopt (parent child : Frame) : Frame where
  subid := parent.subid
  entries := parent.entries ++ child.entries
  acks := parent.acks ++ child.acks

theorem Frame.adopt_subid (parent child : Frame) :
    (parent.adopt child).subid = parent.subid := rfl

def Frame.latest (frame : Frame) (username : EncodedUsername) :
    Option StagedEntry :=
  (frame.entries.filter fun staged => staged.username = username).getLast?

/-- The staging area beside the history that explains it. -/
structure Transaction where
  pending : PendingState
  current : Frame
  outer : List Frame
  ackLog : List ClaimToken

inductive Action
  | stageEntry (staged : StagedEntry)
  | stageAck (token : ClaimToken)
  | startSavepoint (subid : SubTransactionId)
  | commitSavepoint
  | abortSavepoint

namespace Transaction

def start (top : SubTransactionId) : Transaction where
  pending := PendingState.new
  current := ⟨top, [], []⟩
  outer := []
  ackLog := []

def frames (transaction : Transaction) : List Frame :=
  transaction.current :: transaction.outer

def stageEntry (transaction : Transaction) (staged : StagedEntry) :
    Transaction :=
  let result := transaction.pending.stageEntry staged.username
    staged.decision staged.expiry transaction.current.subid
  if result.2 then
    { transaction with
      pending := result.1
      current := { transaction.current with
        entries := transaction.current.entries ++ [staged] } }
  else { transaction with pending := result.1 }

def stageAck (transaction : Transaction) (token : ClaimToken) : Transaction :=
  { transaction with
    pending := transaction.pending.stageAck token transaction.current.subid
    current := { transaction.current with
      acks := transaction.current.acks ++ [transaction.ackLog.length] }
    ackLog := transaction.ackLog ++ [token] }

def step (transaction : Transaction) : Action → Option Transaction
  | .stageEntry staged => some (transaction.stageEntry staged)
  | .stageAck token => some (transaction.stageAck token)
  | .startSavepoint subid =>
      if subid ∈ transaction.frames.map Frame.subid then none
      else some { transaction with
        current := ⟨subid, [], []⟩
        outer := transaction.frames }
  | .commitSavepoint =>
      match transaction.outer with
      | [] => none
      | parent :: rest => some { transaction with
          pending := transaction.pending.onSubCommit
            transaction.current.subid parent.subid
          current := parent.adopt transaction.current
          outer := rest }
  | .abortSavepoint =>
      match transaction.outer with
      | [] => none
      | parent :: rest => some { transaction with
          pending := transaction.pending.onSubAbort transaction.current.subid
          current := parent
          outer := rest }

def machine : Machine Transaction Action := ⟨step⟩

/-- Every accepted entry whose levels were not rolled back, oldest first. -/
def surviving (transaction : Transaction) : List StagedEntry :=
  transaction.frames.reverse.flatMap Frame.entries

def lastStaged (transaction : Transaction) (username : EncodedUsername) :
    Option StagedEntry :=
  (transaction.surviving.filter fun staged =>
    staged.username = username).getLast?

def lastAck (transaction : Transaction) : Option ClaimToken :=
  if transaction.ackLog.length - 1 ∈ transaction.frames.flatMap Frame.acks then
    transaction.ackLog.getLast?
  else none

def livePairs (transaction : Transaction) :
    Finset (EncodedUsername × SubTransactionId) :=
  (transaction.frames.flatMap fun frame =>
    frame.entries.map fun staged => (staged.username, frame.subid)).toFinset

end Transaction

/-! ## One user's entries -/

/-- What the staging area should hold for one user: the latest entry of every
level that has one, outermost first. -/
def view (username : EncodedUsername) : List Frame → List PendingEntry
  | [] => []
  | frame :: outer => view username outer ++
      ((frame.latest username).map (·.at frame.subid)).toList

section

variable {username : EncodedUsername}

theorem Frame.latest_username {frame : Frame} {staged : StagedEntry}
    (found : frame.latest username = some staged) :
    staged.username = username := by
  have member := List.mem_of_getLast? found
  simpa using (List.mem_filter.mp member).2

theorem Frame.latest_append (frame : Frame) (staged : StagedEntry) :
    Frame.latest { frame with entries := frame.entries ++ [staged] } username =
      if staged.username = username then some staged
      else frame.latest username := by
  by_cases same : staged.username = username
  · simp [Frame.latest, same]
  · simp [Frame.latest, same]

theorem Frame.latest_adopt (parent child : Frame) :
    (parent.adopt child).latest username =
      (child.latest username).or (parent.latest username) := by
  rw [Frame.latest, Frame.adopt, List.filter_append, List.getLast?_append]
  rfl

theorem view_subid {frames : List Frame} {entry : PendingEntry}
    (member : entry ∈ view username frames) :
    entry.subid ∈ frames.map Frame.subid := by
  induction frames with
  | nil => cases member
  | cons frame outer induction =>
      rcases List.mem_append.mp member with earlier | here
      · exact List.mem_cons_of_mem _ (induction earlier)
      · rw [Option.mem_toList, Option.map_eq_some_iff] at here
        rcases here with ⟨staged, _, rfl⟩
        exact List.mem_cons_self

theorem view_subid_ne {frame : Frame} {outer : List Frame}
    (nodup : ((frame :: outer).map Frame.subid).Nodup) {entry : PendingEntry}
    (member : entry ∈ view username outer) : entry.subid ≠ frame.subid := by
  intro same
  have outside := (List.nodup_cons.mp nodup).1
  rw [← same] at outside
  exact outside (view_subid member)

theorem view_pairwise {frames : List Frame}
    (nodup : (frames.map Frame.subid).Nodup) :
    (view username frames).Pairwise
      fun earlier later => earlier.subid ≠ later.subid := by
  induction frames with
  | nil => exact List.Pairwise.nil
  | cons frame outer induction =>
      rw [view, List.pairwise_append]
      refine ⟨induction (List.nodup_cons.mp nodup).2, ?_, ?_⟩
      · cases frame.latest username with
        | none => exact List.Pairwise.nil
        | some staged => exact List.pairwise_singleton _ _
      · intro earlier member later here
        rw [Option.mem_toList, Option.map_eq_some_iff] at here
        rcases here with ⟨staged, _, rfl⟩
        exact view_subid_ne nodup member

theorem view_getLast? (frames : List Frame) :
    (view username frames).getLast?.map PendingEntry.staged =
      ((frames.reverse.flatMap Frame.entries).filter
        fun staged => staged.username = username).getLast? := by
  induction frames with
  | nil => rfl
  | cons frame outer induction =>
      rw [view, List.getLast?_append, List.reverse_cons, List.flatMap_append,
        List.filter_append, List.getLast?_append, ← induction,
        List.flatMap_singleton]
      change _ = Option.or (frame.latest username) _
      cases frame.latest username with
      | none => simp
      | some staged => rfl

theorem mem_view {frames : List Frame} {subid : SubTransactionId} :
    (∃ entry ∈ view username frames, entry.subid = subid) ↔
      ∃ frame ∈ frames, frame.subid = subid ∧
        ∃ staged ∈ frame.entries, staged.username = username := by
  induction frames with
  | nil => simp [view]
  | cons frame outer induction =>
      simp only [view, List.mem_append, or_and_right, exists_or, induction,
        List.exists_mem_cons_iff]
      rw [or_comm]
      apply or_congr_left
      constructor
      · intro given
        rcases given with ⟨entry, here, same⟩
        rw [Option.mem_toList, Option.map_eq_some_iff] at here
        rcases here with ⟨staged, found, rfl⟩
        exact ⟨same, staged, (List.mem_filter.mp (List.mem_of_getLast? found)).1,
          Frame.latest_username found⟩
      · intro given
        rcases given with ⟨same, staged, member, isUser⟩
        have nonempty : frame.latest username ≠ none := by
          rw [Frame.latest, ne_eq, List.getLast?_eq_none_iff]
          exact List.ne_nil_of_mem (List.mem_filter.mpr ⟨member, by simpa⟩)
        rcases Option.ne_none_iff_exists'.mp nonempty with ⟨last, found⟩
        exact ⟨last.at frame.subid, by simp [found], same⟩

end

/-! ## Compaction of one user's entries -/

theorem isLatest_filter (entry : PendingEntry) (later : List PendingEntry) :
    PendingState.isLatest entry (later.filter fun other =>
      other.username = entry.username) = PendingState.isLatest entry later := by
  rw [PendingState.isLatest, PendingState.isLatest, List.any_filter]
  congr 2
  funext other
  simp only [PendingEntry.isFor]
  by_cases same : other.username = entry.username
  · simp [same]
  · simp [same]

theorem filterTails_filter (username : EncodedUsername)
    (items : List PendingEntry) :
    (filterTails PendingState.isLatest items).filter
        (fun entry => entry.username = username) =
      filterTails PendingState.isLatest
        (items.filter fun entry => entry.username = username) := by
  induction items with
  | nil => rfl
  | cons head tail induction =>
      by_cases isUser : head.username = username
      · have same := isLatest_filter head tail
        rw [isUser] at same
        have front : (head :: tail).filter
            (fun entry => entry.username = username) =
              head :: tail.filter fun entry => entry.username = username := by
          simp [isUser]
        rw [front, filterTails, filterTails, same]
        cases PendingState.isLatest head tail with
        | true => simp [isUser, induction]
        | false => simpa using induction
      · have front : (head :: tail).filter
            (fun entry => entry.username = username) =
              tail.filter fun entry => entry.username = username := by
          simp [isUser]
        rw [front, filterTails]
        cases PendingState.isLatest head tail with
        | true => simpa [isUser] using induction
        | false => simpa using induction

theorem filterTails_append {front back : List PendingEntry}
    (distinct : front.Pairwise fun earlier later => earlier.subid ≠ later.subid)
    (apart : ∀ entry ∈ front, ∀ later ∈ back, entry.subid ≠ later.subid) :
    filterTails PendingState.isLatest (front ++ back) =
      front ++ filterTails PendingState.isLatest back := by
  induction front with
  | nil => rfl
  | cons head tail induction =>
      rcases List.pairwise_cons.mp distinct with ⟨headApart, tailDistinct⟩
      have latest : PendingState.isLatest head (tail ++ back) = true := by
        rw [PendingState.isLatest, Bool.not_eq_true', List.any_eq_false]
        intro later member
        have different : head.subid ≠ later.subid := by
          rcases List.mem_append.mp member with inTail | inBack
          · exact headApart later inTail
          · exact apart head List.mem_cons_self later inBack
        simp [PendingEntry.isFor, different.symm]
      rw [List.cons_append, filterTails, latest, if_pos rfl,
        induction tailDistinct fun entry member =>
          apart entry (List.mem_cons_of_mem _ member)]
      rfl

/-! ## The entries follow the frames -/

def EntriesTrack (pending : PendingState) (frames : List Frame) : Prop :=
  ∃ items, pending.Holds items ∧
    ∀ username, items.filter (fun entry => entry.username = username) =
      view username frames

theorem append_cons_eq_append_singleton {before after front : List α}
    {item last : α} (equal : before ++ item :: after = front ++ [last])
    (outside : item ∉ front) : before = front ∧ after = [] := by
  rcases List.eq_nil_or_concat after with rfl | ⟨init, final, rfl⟩
  · exact ⟨(List.append_inj' equal rfl).1, rfl⟩
  · exfalso
    apply outside
    rw [List.concat_eq_append, ← List.cons_append, ← List.append_assoc] at equal
    rw [← (List.append_inj' equal rfl).1]
    simp

theorem filter_overwrite {before after : List PendingEntry}
    {old : PendingEntry} (new : PendingEntry) {current : Frame}
    {outer : List Frame} (levels : ((current :: outer).map Frame.subid).Nodup)
    (sameLevel : old.subid = current.subid)
    (sameUser : old.username = new.username)
    (filtered : (before ++ old :: after).filter
      (fun entry => entry.username = new.username) =
        view new.username (current :: outer)) :
    (before ++ new :: after).filter
        (fun entry => entry.username = new.username) =
      view new.username outer ++ [new] := by
  rw [List.filter_append, List.filter_cons, if_pos (by simp [sameUser]),
    view] at filtered
  have outside : old ∉ view new.username outer := fun member =>
    view_subid_ne levels member sameLevel
  rw [List.filter_append, List.filter_cons, if_pos (by simp)]
  cases latest : current.latest new.username with
  | none =>
      rw [latest, Option.map_none, Option.toList_none,
        List.append_nil] at filtered
      exfalso
      apply outside
      rw [← filtered]
      simp
  | some staged =>
      rw [latest] at filtered
      rcases append_cons_eq_append_singleton filtered outside with ⟨same, none⟩
      rw [same, none]

theorem EntriesTrack.stageEntry {pending : PendingState} {current : Frame}
    {outer : List Frame} (track : EntriesTrack pending (current :: outer))
    (levels : ((current :: outer).map Frame.subid).Nodup)
    (staged : StagedEntry)
    (accepted : (pending.stageEntry staged.username staged.decision
      staged.expiry current.subid).2 = true) :
    EntriesTrack (pending.stageEntry staged.username staged.decision
        staged.expiry current.subid).1
      ({ current with entries := current.entries ++ [staged] } :: outer) := by
  rcases track with ⟨items, holds, filtered⟩
  rcases PendingState.stageEntry_cases holds staged.username staged.decision
      staged.expiry current.subid with
    ⟨before, old, after, rfl, matched, _, held⟩ |
      ⟨unmatched, ⟨_, _, held⟩ | ⟨_, refused⟩⟩
  · simp only [PendingEntry.isFor, Bool.and_eq_true, beq_iff_eq] at matched
    rw [matched.1, matched.2] at held
    refine ⟨_, held, fun username => ?_⟩
    rw [view, Frame.latest_append]
    by_cases same : staged.username = username
    · subst username
      rw [if_pos rfl]
      exact filter_overwrite (staged.at current.subid) levels matched.1
        matched.2 (filtered staged.username)
    · have before := filtered username
      rw [view] at before
      rw [if_neg same, ← before]
      simp [same, matched.2]
  · refine ⟨_, held, fun username => ?_⟩
    rw [view, Frame.latest_append, List.filter_append, filtered username, view]
    by_cases same : staged.username = username
    · subst username
      have none : current.latest staged.username = none := by
        by_contra nonempty
        rcases Option.ne_none_iff_exists'.mp nonempty with ⟨latest, found⟩
        have member : latest.at current.subid ∈
            view staged.username (current :: outer) := by
          simp [view, found]
        rw [← filtered] at member
        have rejected := unmatched _ (List.mem_filter.mp member).1
        simp [PendingEntry.isFor, StagedEntry.at,
          Frame.latest_username found] at rejected
      simp [none, StagedEntry.at]
    · simp [same]
  · rw [refused] at accepted
    cases accepted

theorem EntriesTrack.startSavepoint {pending : PendingState}
    {frames : List Frame} (track : EntriesTrack pending frames)
    (subid : SubTransactionId) :
    EntriesTrack pending (⟨subid, [], []⟩ :: frames) := by
  rcases track with ⟨items, holds, filtered⟩
  refine ⟨items, holds, fun username => ?_⟩
  rw [view, filtered username]
  exact (List.append_nil _).symm

theorem EntriesTrack.abortSavepoint {pending : PendingState} {current : Frame}
    {outer : List Frame} (track : EntriesTrack pending (current :: outer))
    (levels : ((current :: outer).map Frame.subid).Nodup) :
    EntriesTrack (pending.onSubAbort current.subid) outer := by
  rcases track with ⟨items, holds, filtered⟩
  refine ⟨_, PendingState.holds_onSubAbort holds current.subid,
    fun username => ?_⟩
  rw [List.filter_comm, filtered username, view, List.filter_append]
  have kept : (view username outer).filter
      (fun entry => entry.subid != current.subid) = view username outer := by
    rw [List.filter_eq_self]
    intro entry member
    simpa using view_subid_ne levels member
  have dropped : (((current.latest username).map
      (·.at current.subid)).toList).filter
        (fun entry => entry.subid != current.subid) = [] := by
    rw [List.filter_eq_nil_iff]
    intro entry member
    rw [Option.mem_toList, Option.map_eq_some_iff] at member
    rcases member with ⟨staged, _, rfl⟩
    simp [StagedEntry.at]
  rw [kept, dropped, List.append_nil]

theorem reparent_other {mySubid parentSubid : SubTransactionId}
    {entry : PendingEntry} (different : entry.subid ≠ mySubid) :
    entry.reparent mySubid parentSubid = entry := by
  rw [PendingEntry.reparent, if_neg different]

@[simp] theorem reparent_username (mySubid parentSubid : SubTransactionId)
    (entry : PendingEntry) :
    (entry.reparent mySubid parentSubid).username = entry.username := by
  rw [PendingEntry.reparent]
  split <;> rfl

theorem reparent_own (staged : StagedEntry)
    (mySubid parentSubid : SubTransactionId) :
    (staged.at mySubid).reparent mySubid parentSubid =
      staged.at parentSubid := by
  simp [PendingEntry.reparent, StagedEntry.at]

theorem filterTails_join (parentSubid : SubTransactionId)
    (parent child : Option StagedEntry) {username : EncodedUsername}
    (parentUser : ∀ staged ∈ parent, staged.username = username)
    (childUser : ∀ staged ∈ child, staged.username = username) :
    filterTails PendingState.isLatest
        ((parent.map (·.at parentSubid)).toList ++
          (child.map (·.at parentSubid)).toList) =
      ((child.or parent).map (·.at parentSubid)).toList := by
  cases parent with
  | none =>
      cases child with
      | none => rfl
      | some inner => rfl
  | some staged =>
      cases child with
      | none => rfl
      | some inner =>
          have sameUser : inner.username = staged.username :=
            (childUser inner rfl).trans (parentUser staged rfl).symm
          simp [filterTails, PendingState.isLatest, PendingEntry.isFor,
            StagedEntry.at, sameUser]

theorem view_map_reparent {current parent : Frame} {rest : List Frame}
    (levels : ((current :: parent :: rest).map Frame.subid).Nodup)
    (username : EncodedUsername) :
    (view username (current :: parent :: rest)).map
        (PendingEntry.reparent current.subid parent.subid) =
      view username rest ++
        (((parent.latest username).map (·.at parent.subid)).toList ++
          ((current.latest username).map (·.at parent.subid)).toList) := by
  have outerKept : (view username (parent :: rest)).map
      (PendingEntry.reparent current.subid parent.subid) =
        view username (parent :: rest) :=
    (List.map_congr_left fun entry member =>
      reparent_other (view_subid_ne levels member)).trans (List.map_id _)
  rw [view, List.map_append, outerKept, view, List.append_assoc]
  congr 2
  cases current.latest username with
  | none => rfl
  | some staged => simp [reparent_own]

theorem EntriesTrack.commitSavepoint {pending : PendingState}
    {current parent : Frame} {rest : List Frame}
    (track : EntriesTrack pending (current :: parent :: rest))
    (levels : ((current :: parent :: rest).map Frame.subid).Nodup) :
    EntriesTrack (pending.onSubCommit current.subid parent.subid)
      (parent.adopt current :: rest) := by
  rcases track with ⟨items, holds, filtered⟩
  refine ⟨_, PendingState.holds_onSubCommit holds current.subid parent.subid,
    fun username => ?_⟩
  have outerLevels := (List.nodup_cons.mp levels).2
  have mapped : (items.map
      (PendingEntry.reparent current.subid parent.subid)).filter
        (fun entry => entry.username = username) =
      (view username (current :: parent :: rest)).map
        (PendingEntry.reparent current.subid parent.subid) := by
    rw [List.filter_map, ← filtered username]
    congr 2
    funext entry
    simp
  rw [filterTails_filter, mapped, view_map_reparent levels, view,
    Frame.latest_adopt, Frame.adopt_subid, ← filterTails_join parent.subid
      (parent.latest username) (current.latest username)
      (fun _ found => Frame.latest_username found)
      (fun _ found => Frame.latest_username found)]
  apply filterTails_append (view_pairwise (List.nodup_cons.mp outerLevels).2)
  intro entry member later joined
  have atParent : later.subid = parent.subid := by
    simp only [List.mem_append, Option.mem_toList,
      Option.map_eq_some_iff] at joined
    rcases joined with ⟨staged, _, rfl⟩ | ⟨staged, _, rfl⟩
    · rfl
    · rfl
  rw [atParent]
  exact view_subid_ne outerLevels member

end PasswordProfile.PendingCacheOp
